import FestivalPlanner.Lib.InFlight
import FestivalPlanner.Lib.Machine

/-!
# The lockout of an account

Logins for one account whose statements interleave: `POST /login` and `handleLoginFailure` of
`routes/auth.ts`, and the `loginFailures` of `lib/db/stores/sessions.ts`.

* `Failures` — the row of the account in `login_failures`, with the statements on it;
* `Attempt`, `runAttempt` — a login at its next statement;
* `step` — the machine of all attempts, under a clock;
* `Bounded` — what the lockout is for;
* `lockout_bounds` — it does so in every run whose attempts leave each other room.
-/

namespace FestivalPlanner.Auth.Lockout

open List Option InFlight

/-! ## The row -/

/-- The row of the account in `login_failures`. -/
structure Failures where
  consecutiveFailures : ℕ
  lastFailureAt : ℕ
  lockedUntil : Option ℕ
  deriving DecidableEq

/-- `loginFailures.record` -/
def record (now : ℕ) : Option Failures → Option Failures
  | none => some { consecutiveFailures := 1, lastFailureAt := now, lockedUntil := none }
  | some f => some { f with
      consecutiveFailures := f.consecutiveFailures + 1, lastFailureAt := now }

/-- `loginFailures.lock` -/
def lock (lockedUntil : ℕ) (row : Option Failures) : Option Failures :=
  row.map (fun f => { f with lockedUntil := some lockedUntil })

/-- The counter; an account without a row has no failures. -/
def count (row : Option Failures) : ℕ := row.elim 0 Failures.consecutiveFailures

/-- Until when the account is locked, if a lock was written. -/
def lockOf (row : Option Failures) : Option ℕ := row.bind Failures.lockedUntil

/-- The test of `checkAccountLockout`. -/
def isLocked (now : ℕ) (row : Option Failures) : Bool := (lockOf row).any (fun u => now < u)

@[simp] theorem count_none : count none = 0 := rfl
@[simp] theorem lockOf_none : lockOf none = none := rfl

@[simp] theorem count_record (now : ℕ) (row : Option Failures) :
    count (record now row) = count row + 1 := by
  cases row <;> rfl

@[simp] theorem lockOf_record (now : ℕ) (row : Option Failures) :
    lockOf (record now row) = lockOf row := by
  cases row <;> rfl

@[simp] theorem count_lock (u : ℕ) (row : Option Failures) : count (lock u row) = count row := by
  cases row <;> rfl

variable {row : Option Failures} {k since : ℕ}

theorem lockOf_lock {u : ℕ} (h : 0 < count row) : lockOf (lock u row) = some u := by
  cases row with
  | none => cases h
  | some f => rfl

theorem isLocked_iff {now : ℕ} : isLocked now row = true ↔ ∃ u, lockOf row = some u ∧ now < u := by
  simp [isLocked, Option.any_eq_true]

/-! ## Attempts -/

structure Config where
  maxLoginFailures : ℕ
  loginLockoutMs : ℕ

/-- `DEFAULTS` -/
def defaults : Config := { maxLoginFailures := 10, loginLockoutMs := 15 * 60 * 1000 }

inductive Answer where
  /-- 200 -/
  | loggedIn
  /-- 401 -/
  | invalidCredentials
  /-- 423 -/
  | accountLocked
  /-- 429 -/
  | rateLimited
  deriving DecidableEq

/-- A login for the account at its next statement; `right` says whether `verifyPassword` accepts
its password. -/
inductive Attempt where
  /-- `checkAccountLockout` reads the row -/
  | arrived (right : Bool)
  /-- the password is verified, and the row deleted or the failure recorded -/
  | admitted (right : Bool)
  /-- `handleLoginFailure` reads the counter -/
  | recorded
  /-- and locks the account -/
  | locking (lockedUntil : ℕ)
  | answered (answer : Answer)
  deriving DecidableEq

/-- The next statement of an attempt; `allowed` is what `consumeUserAuthRateLimit` says. -/
def runAttempt (cfg : Config) (now : ℕ) (allowed : Bool) (row : Option Failures) :
    Attempt → Option (Option Failures × Attempt)
  | .arrived right =>
      if isLocked now row then some (row, .answered .accountLocked)
      else if allowed then some (row, .admitted right)
      else some (row, .answered .rateLimited)
  | .admitted true => some (none, .answered .loggedIn)
  | .admitted false => some (record now row, .recorded)
  | .recorded =>
      if row.isSome ∧ cfg.maxLoginFailures ≤ count row then
        some (row, .locking (now + cfg.loginLockoutMs))
      else some (row, .answered .invalidCredentials)
  | .locking lockedUntil => some (lock lockedUntil row, .answered .invalidCredentials)
  | .answered _ => none

/-- The failure is recorded and the answer still to come. -/
@[grind =] def Attempt.unanswered : Attempt → Bool
  | .recorded | .locking _ => true
  | _ => false

/-- The attempt has not begun, or has ended. -/
def Attempt.atRest : Attempt → Bool
  | .arrived _ | .answered _ => true
  | _ => false

/-! ## The machine -/

/-- The row, the attempts and the clock.  What follows is read by no statement: the attempts
answered 401 since the counter was last reset, and which failure reached the threshold, and
when. -/
structure State where
  row : Option Failures
  attempts : List Attempt
  clock : ℕ
  unauthorized : ℕ
  reached : Option (ℕ × ℕ)
  deriving DecidableEq

/-- A login arrives, or the next statement of one is executed. -/
inductive Action where
  | login (right : Bool)
  | run (i now : ℕ) (allowed : Bool)
  deriving DecidableEq

/-- The attempts answered 401 after a statement. -/
def unauthorizedAfter (n : ℕ) (attempt next : Attempt) : ℕ :=
  if attempt = .admitted true then 0
  else if next = .answered .invalidCredentials then n + 1
  else n

/-- The failure that reached the threshold, after a statement. -/
def reachedAfter (cfg : Config) (reached : Option (ℕ × ℕ)) (row : Option Failures) (i now : ℕ)
    (attempt : Attempt) : Option (ℕ × ℕ) :=
  if attempt = .admitted true then none
  else if attempt = .admitted false ∧ count row = cfg.maxLoginFailures then some (i, now)
  else reached

/-- One action. -/
def step (cfg : Config) (s : State) : Action → Option State
  | .login right => some { s with attempts := s.attempts ++ [.arrived right] }
  | .run i now allowed =>
      if s.clock ≤ now then do
        let attempt ← s.attempts[i]?
        let (row, next) ← runAttempt cfg now allowed s.row attempt
        return {
          row := row
          attempts := s.attempts.set i next
          clock := now
          unauthorized := unauthorizedAfter s.unauthorized attempt next
          reached := reachedAfter cfg s.reached row i now attempt }
      else none

/-- An account without a failure, and nobody logging in. -/
def start (clock : ℕ) : State :=
  { row := none, attempts := [], clock := clock, unauthorized := 0, reached := none }

theorem step_run {cfg : Config} {s : State} {i now : ℕ} {allowed : Bool}
    (h : step cfg s (.run i now allowed) = some t) :
    s.clock ≤ now ∧ ∃ attempt row next, s.attempts[i]? = some attempt ∧
      runAttempt cfg now allowed s.row attempt = some (row, next) ∧
      t = {
        row := row
        attempts := s.attempts.set i next
        clock := now
        unauthorized := unauthorizedAfter s.unauthorized attempt next
        reached := reachedAfter cfg s.reached row i now attempt } := by
  simp only [step, ite_none_right_eq_some, bind_eq_bind, bind_eq_some_iff] at h
  obtain ⟨hclock, attempt, hattempt, ⟨row, next⟩, hrun, ht⟩ := h
  exact ⟨hclock, attempt, row, next, hattempt, hrun, (some.inj ht).symm⟩

/-! ## The property and the condition -/

/-- Since the last reset at most `MAX_LOGIN_FAILURES` attempts are answered 401; and for
`LOGIN_LOCKOUT_MS` after the failure that reaches the threshold any other attempt that does
something is answered 423 and leaves the row as it is. -/
structure Bounded (cfg : Config) (s : State) (a : Action) (t : State) : Prop where
  unauthorized_le : t.unauthorized ≤ cfg.maxLoginFailures
  shut : ∀ i since, s.reached = some (i, since) →
    ∀ j now allowed, a = .run j now allowed → j ≠ i → now < since + cfg.loginLockoutMs →
      t.row = s.row ∧ t.attempts[j]? = some (.answered .accountLocked)

/-- The attempts that were admitted with a wrong password that is not recorded yet. -/
def pending (attempts : List Attempt) : ℕ := attempts.countP (fun x => decide (x = .admitted false))

/-- No failure has reached the threshold whose lock is not written yet. -/
def Settled (cfg : Config) (row : Option Failures) : Prop :=
  count row < cfg.maxLoginFailures ∨ (lockOf row).isSome = true

/-- The condition on one statement: the row is checked when it is settled, and a wrong password is
admitted when the counter has room for it and for those admitted before it; the counter is reset
while no failure waits for its answer; and the threshold is reached while no other attempt is
between its check and its answer. -/
def InOrder (cfg : Config) (s : State) (i now : ℕ) (allowed : Bool) : Attempt → Prop
  | .arrived right => isLocked now s.row = false → Settled cfg s.row ∧
      (right = false → allowed = true → count s.row + pending s.attempts < cfg.maxLoginFailures)
  | .admitted true => ∀ x ∈ s.attempts, x.unanswered = false
  | .admitted false => count s.row + 1 = cfg.maxLoginFailures →
      ∀ x ∈ s.attempts.eraseIdx i, x.atRest = true
  | .recorded | .locking _ | .answered _ => True

def Orderly (cfg : Config) (s : State) : Action → Prop
  | .login _ => True
  | .run i now allowed => ∀ x ∈ s.attempts[i]?, InOrder cfg s i now allowed x

instance (cfg : Config) (row : Option Failures) : Decidable (Settled cfg row) :=
  inferInstanceAs (Decidable (_ ∨ _))

instance (cfg : Config) (s : State) (i now : ℕ) (allowed : Bool) :
    ∀ x, Decidable (InOrder cfg s i now allowed x) := fun x => by
  unfold InOrder
  split <;> infer_instance

instance (cfg : Config) (s : State) : ∀ a, Decidable (Orderly cfg s a) := fun a => by
  unfold Orderly
  split <;> infer_instance

/-! ## The invariant -/

/-- A failure has reached the threshold, and the account is not locked yet. -/
structure Closing (cfg : Config) (s : State) (i since : ℕ) : Prop where
  unlocked : lockOf s.row = none
  others : ∀ j x, j ≠ i → s.attempts[j]? = some x → x.atRest = true
  own : s.attempts[i]? = some .recorded ∨
    ∃ u, s.attempts[i]? = some (.locking u) ∧ since + cfg.loginLockoutMs ≤ u

/-- The account is locked; only after that has anybody been admitted. -/
structure Closed (cfg : Config) (s : State) (since : ℕ) : Prop where
  locked : ∃ u, lockOf s.row = some u ∧ since + cfg.loginLockoutMs ≤ u
  attempts : ∀ x ∈ s.attempts,
    x.atRest = true ∨ x = .admitted true ∧ since + cfg.loginLockoutMs ≤ s.clock

/-- What the steps that meet the condition keep. -/
structure Ordered (cfg : Config) (s : State) : Prop where
  counted : count s.row = s.unauthorized + s.attempts.countP Attempt.unanswered
  room : count s.row + pending s.attempts ≤ cfg.maxLoginFailures
  opened : s.reached = none → lockOf s.row = none ∧ (∀ u, .locking u ∉ s.attempts) ∧
    (count s.row = 0 ∨ count s.row < cfg.maxLoginFailures)
  reached : ∀ i since, s.reached = some (i, since) → since ≤ s.clock ∧
    count s.row = cfg.maxLoginFailures ∧ (Closing cfg s i since ∨ Closed cfg s since)

theorem ordered_start (cfg : Config) (clock : ℕ) : Ordered cfg (start clock) where
  counted := rfl
  room := Nat.zero_le _
  opened := fun _ => ⟨rfl, fun _ => not_mem_nil, .inl rfl⟩
  reached := fun _ _ h => nomatch h

variable {cfg : Config} {s t : State} {i now : ℕ} {x y : Attempt}

theorem Ordered.unauthorized_le (hs : Ordered cfg s) : s.unauthorized ≤ cfg.maxLoginFailures := by
  have := hs.counted
  have := hs.room
  omega

theorem pending_set (hx : s.attempts[i]? = some x) (y : Attempt) :
    pending (s.attempts.set i y) + (if x = .admitted false then 1 else 0) =
      pending s.attempts + (if y = .admitted false then 1 else 0) := by
  have := countP_set (fun z => decide (z = .admitted false)) hx y
  simp only [decide_eq_true_eq] at this
  exact this

/-- An attempt whose failure waits for its answer is one of the failures that are counted. -/
theorem Ordered.count_pos (hs : Ordered cfg s) (hx : s.attempts[i]? = some x)
    (hunanswered : x.unanswered = true) : 0 < count s.row := by
  have hpos : 0 < s.attempts.countP Attempt.unanswered :=
    countP_pos_iff.mpr ⟨x, mem_of_getElem? hx, hunanswered⟩
  have := hs.counted
  omega

/-- Such an attempt is the one whose failure reached the threshold, if one did. -/
theorem Ordered.closing (hs : Ordered cfg s) (hreached : s.reached = some (k, since))
    (hx : s.attempts[i]? = some x) (hunanswered : x.unanswered = true) :
    i = k ∧ Closing cfg s k since := by
  obtain ⟨-, -, hclosing | hclosed⟩ := hs.reached k since hreached
  · refine ⟨?_, hclosing⟩
    by_contra hne
    have hrest := hclosing.others i x hne hx
    cases x <;> simp_all [Attempt.unanswered, Attempt.atRest]
  · have hrest := hclosed.attempts x (mem_of_getElem? hx)
    cases x <;> simp_all [Attempt.unanswered, Attempt.atRest]

/-! ## What a statement keeps -/

/-- An attempt that comes or goes leaves a lock that is about to be written as it is. -/
theorem Closing.set (h : Closing cfg s k since) (hrow : t.row = s.row)
    (hattempts : t.attempts = s.attempts.set i y) (hx : s.attempts[i]? = some x)
    (hxrest : x.atRest = true) (hyrest : y.atRest = true) : Closing cfg t k since := by
  have hne : i ≠ k := by
    rintro rfl
    rcases h.own with hown | ⟨u, hown, -⟩ <;>
      obtain rfl := some.inj (hx.symm.trans hown) <;> cases hxrest
  refine ⟨hrow ▸ h.unlocked, ?_, ?_⟩
  · intro j z hj hz
    rw [hattempts, getElem?_set] at hz
    split at hz
    · split at hz
      · obtain rfl := some.inj hz
        exact hyrest
      · cases hz
    · exact h.others j z hj hz
  · rw [hattempts, getElem?_set_ne hne]
    exact h.own

/-- A locked account stays locked. -/
theorem Closed.set (h : Closed cfg s since) (hrow : t.row = s.row)
    (hattempts : t.attempts = s.attempts.set i y) (hclock : s.clock ≤ t.clock)
    (hy : y.atRest = true ∨ y = .admitted true ∧ since + cfg.loginLockoutMs ≤ t.clock) :
    Closed cfg t since := by
  refine ⟨hrow ▸ h.locked, ?_⟩
  rw [hattempts]
  apply forall_mem_set
  · intro z hz
    exact (h.attempts z hz).imp_right fun hadmitted => ⟨hadmitted.1, le_trans hadmitted.2 hclock⟩
  · exact hy

/-- An attempt that does not come to lock the account leaves it so that none does. -/
theorem not_locking_set (h : ∀ u, Attempt.locking u ∉ s.attempts) (hy : ∀ u, y ≠ .locking u) :
    ∀ u, Attempt.locking u ∉ s.attempts.set i y := by
  intro u hmem
  rcases mem_or_eq_of_mem_set hmem with hmem | heq
  · exact h u hmem
  · exact hy u heq.symm

/-- A statement that only moves an attempt between states without a failure keeps the
invariant. -/
theorem Ordered.set (hs : Ordered cfg s) (hrow : t.row = s.row)
    (hattempts : t.attempts = s.attempts.set i y) (hclock : s.clock ≤ t.clock)
    (hghost : t.unauthorized = s.unauthorized ∧ t.reached = s.reached)
    (hx : s.attempts[i]? = some x) (hxrest : x.atRest = true) (hy : y.unanswered = false)
    (hroom : y = .admitted false → count s.row + pending s.attempts < cfg.maxLoginFailures)
    (hsettled : y.atRest = true ∨ Settled cfg s.row ∧ ∀ u, lockOf s.row = some u → u ≤ t.clock) :
    Ordered cfg t := by
  have hunanswered := countP_set Attempt.unanswered hx y
  have hpending := pending_set hx y
  have hxa : x.unanswered = false ∧ x ≠ .admitted false := by
    cases x <;> simp_all [Attempt.atRest, Attempt.unanswered]
  simp only [hxa.1, hy, hxa.2, Bool.false_eq_true, if_false, Nat.add_zero] at hunanswered hpending
  refine ⟨?_, ?_, ?_, ?_⟩
  · rw [hrow, hattempts, hghost.1, hunanswered]
    exact hs.counted
  · rw [hrow, hattempts, hpending]
    split
    · have := hroom (by assumption)
      omega
    · exact hs.room
  · rw [hrow, hghost.2, hattempts]
    intro hnone
    obtain ⟨hunlocked, hlocking, hcount⟩ := hs.opened hnone
    refine ⟨hunlocked, not_locking_set hlocking ?_, hcount⟩
    rintro u rfl
    cases hy
  · intro k since hreached
    rw [hghost.2] at hreached
    obtain ⟨hsince, hcount, hstage⟩ := hs.reached k since hreached
    refine ⟨le_trans hsince hclock, hrow ▸ hcount, ?_⟩
    rcases hstage with hclosing | hclosed
    · rcases hsettled with hrest | ⟨hlt | hlocked, -⟩
      · exact .inl (hclosing.set hrow hattempts hx hxrest hrest)
      · omega
      · rw [hclosing.unlocked] at hlocked
        cases hlocked
    · refine .inr (hclosed.set hrow hattempts hclock ?_)
      rcases hsettled with hrest | ⟨-, hexpired⟩
      · exact .inl hrest
      · obtain ⟨u, hu, hle⟩ := hclosed.locked
        have := hexpired u hu
        cases y with
        | admitted right =>
          cases right with
          | true => exact .inr ⟨rfl, by omega⟩
          | false =>
            have := hroom rfl
            omega
        | _ => simp_all [Attempt.atRest, Attempt.unanswered]

theorem not_isLocked (h : isLocked now row = false) : ∀ u, lockOf row = some u → u ≤ now := by
  intro u hu
  by_contra hlt
  rw [isLocked_iff.mpr ⟨u, hu, Nat.lt_of_not_le hlt⟩] at h
  cases h

/-- The counter is reset. -/
theorem Ordered.reset (hs : Ordered cfg s) (hx : s.attempts[i]? = some (.admitted true))
    (hnone : ∀ z ∈ s.attempts, z.unanswered = false) (ht : t = {
      row := none, attempts := s.attempts.set i (.answered .loggedIn), clock := now
      unauthorized := 0, reached := none }) : Ordered cfg t := by
  subst ht
  have hunanswered : (s.attempts.set i (.answered .loggedIn)).countP Attempt.unanswered = 0 := by
    rw [countP_eq_zero]
    intro z hz
    have := forall_mem_set hnone (y := .answered .loggedIn) rfl z hz
    simp [this]
  have hpending := pending_set hx (.answered .loggedIn)
  have hroom := hs.room
  refine ⟨?_, ?_, fun _ => ⟨rfl, ?_, .inl rfl⟩, fun _ _ h => nomatch h⟩
  · simp [hunanswered]
  · simp at hpending ⊢
    omega
  · apply not_locking_set
    · intro u hmem
      cases hnone _ hmem
    · intro u h
      cases h

/-- A failure is recorded. -/
theorem Ordered.record (now : ℕ) (hs : Ordered cfg s)
    (hx : s.attempts[i]? = some (.admitted false))
    (hlast : count s.row + 1 = cfg.maxLoginFailures →
      ∀ z ∈ s.attempts.eraseIdx i, z.atRest = true) (ht : t = {
      row := record now s.row, attempts := s.attempts.set i .recorded, clock := now
      unauthorized := s.unauthorized
      reached := if count s.row + 1 = cfg.maxLoginFailures then some (i, now) else s.reached }) :
    Ordered cfg t := by
  subst ht
  have hunanswered := countP_set Attempt.unanswered hx .recorded
  have hpending := pending_set hx .recorded
  simp only [Attempt.unanswered, if_true, reduceCtorEq, if_false, Bool.false_eq_true,
    Nat.add_zero] at hunanswered hpending
  have hcounted := hs.counted
  have hroom := hs.room
  -- there was room for this failure, so no threshold was reached before it
  have hunreached : s.reached = none := by
    cases hreached : s.reached with
    | none => rfl
    | some p =>
      obtain ⟨-, hcount, -⟩ := hs.reached p.1 p.2 hreached
      omega
  obtain ⟨hunlocked, hlocking, -⟩ := hs.opened hunreached
  refine ⟨?_, ?_, ?_, ?_⟩
  · simp only [count_record]
    omega
  · simp only [count_record]
    omega
  · intro hnone
    refine ⟨by simpa using hunlocked, not_locking_set hlocking (by simp), .inr ?_⟩
    simp only [count_record]
    by_contra hge
    have : count s.row + 1 = cfg.maxLoginFailures := by omega
    simp [this] at hnone
  · intro k since hreached
    simp only [hunreached] at hreached
    split at hreached
    · rename_i hmax
      obtain ⟨rfl, rfl⟩ : i = k ∧ now = since := by simpa using hreached
      refine ⟨le_refl _, by simpa using hmax, .inl ⟨by simpa using hunlocked, ?_, .inl ?_⟩⟩
      · intro j z hj hz
        rw [getElem?_set_ne (Ne.symm hj)] at hz
        exact hlast hmax z (mem_eraseIdx_iff_getElem?.mpr ⟨j, hj, hz⟩)
      · obtain ⟨hlt, -⟩ := List.getElem?_eq_some_iff.mp hx
        exact getElem?_set_self hlt
    · cases hreached

/-- The counter is read, and the account is to be locked. -/
theorem Ordered.locking (hs : Ordered cfg s) (hclock : s.clock ≤ now)
    (hx : s.attempts[i]? = some .recorded) (hmax : cfg.maxLoginFailures ≤ count s.row)
    (ht : t = { s with
      attempts := s.attempts.set i (.locking (now + cfg.loginLockoutMs)), clock := now }) :
    Ordered cfg t := by
  subst ht
  have hunanswered := countP_set Attempt.unanswered hx (.locking (now + cfg.loginLockoutMs))
  have hpending := pending_set hx (.locking (now + cfg.loginLockoutMs))
  simp only [Attempt.unanswered, if_true, reduceCtorEq, if_false, Nat.add_zero,
    Nat.add_right_cancel_iff] at hunanswered hpending
  have hpos := hs.count_pos hx rfl
  refine ⟨?_, ?_, ?_, ?_⟩
  · simp only [hunanswered]
    exact hs.counted
  · simp only [hpending]
    exact hs.room
  · intro hnone
    obtain ⟨-, -, hzero | hlt⟩ := hs.opened hnone <;> omega
  · intro k since hreached
    obtain ⟨rfl, hclosing⟩ := hs.closing hreached hx rfl
    obtain ⟨hsince, hcount, -⟩ := hs.reached i since hreached
    refine ⟨le_trans hsince hclock, hcount,
      .inl ⟨hclosing.unlocked, ?_, .inr ⟨now + cfg.loginLockoutMs, ?_, ?_⟩⟩⟩
    · intro j z hj hz
      rw [getElem?_set_ne (Ne.symm hj)] at hz
      exact hclosing.others j z hj hz
    · obtain ⟨hlt, -⟩ := List.getElem?_eq_some_iff.mp hx
      exact getElem?_set_self hlt
    · omega

/-- The counter is read below the threshold. -/
theorem Ordered.refuse (hs : Ordered cfg s) (hx : s.attempts[i]? = some .recorded)
    (hmax : count s.row < cfg.maxLoginFailures) (ht : t = { s with
      attempts := s.attempts.set i (.answered .invalidCredentials), clock := now
      unauthorized := s.unauthorized + 1 }) : Ordered cfg t := by
  subst ht
  have hunanswered := countP_set Attempt.unanswered hx (.answered .invalidCredentials)
  have hpending := pending_set hx (.answered .invalidCredentials)
  simp only [Attempt.unanswered, if_true, reduceCtorEq, if_false, Bool.false_eq_true,
    Nat.add_zero] at hunanswered hpending
  have hcounted := hs.counted
  refine ⟨?_, ?_, ?_, ?_⟩
  · simp only
    omega
  · simp only [hpending]
    exact hs.room
  · intro hnone
    obtain ⟨hunlocked, hlocking, hcount⟩ := hs.opened hnone
    exact ⟨hunlocked, not_locking_set hlocking (by simp), hcount⟩
  · intro k since hreached
    obtain ⟨-, hcount, -⟩ := hs.reached k since hreached
    omega

/-- The account is locked. -/
theorem Ordered.lock {u : ℕ} (hs : Ordered cfg s) (hclock : s.clock ≤ now)
    (hx : s.attempts[i]? = some (.locking u)) (ht : t = { s with
      row := lock u s.row
      attempts := s.attempts.set i (.answered .invalidCredentials), clock := now
      unauthorized := s.unauthorized + 1 }) : Ordered cfg t := by
  subst ht
  have hunanswered := countP_set Attempt.unanswered hx (.answered .invalidCredentials)
  have hpending := pending_set hx (.answered .invalidCredentials)
  simp only [Attempt.unanswered, if_true, reduceCtorEq, if_false, Bool.false_eq_true,
    Nat.add_zero] at hunanswered hpending
  have hcounted := hs.counted
  have hpos := hs.count_pos hx rfl
  refine ⟨?_, ?_, ?_, ?_⟩
  · simp only [count_lock]
    omega
  · simp only [count_lock, hpending]
    exact hs.room
  · intro hnone
    obtain ⟨-, hlocking, -⟩ := hs.opened hnone
    exact absurd (mem_of_getElem? hx) (hlocking u)
  · intro k since hreached
    obtain ⟨rfl, hclosing⟩ := hs.closing hreached hx rfl
    obtain ⟨hsince, hcount, -⟩ := hs.reached i since hreached
    have hlate : since + cfg.loginLockoutMs ≤ u := by
      rcases hclosing.own with hown | ⟨v, hown, hle⟩
      · cases hx.symm.trans hown
      · cases hx.symm.trans hown
        exact hle
    refine ⟨le_trans hsince hclock, by simpa using hcount, .inr ⟨⟨u, lockOf_lock hpos, hlate⟩, ?_⟩⟩
    intro z hz
    obtain ⟨j, hj⟩ := mem_iff_getElem?.mp hz
    by_cases hji : j = i
    · subst hji
      obtain ⟨hlt, -⟩ := List.getElem?_eq_some_iff.mp hx
      rw [getElem?_set_self hlt] at hj
      cases hj
      exact .inl rfl
    · rw [getElem?_set_ne (Ne.symm hji)] at hj
      exact .inl (hclosing.others j z hji hj)

/-- A login that arrives keeps the invariant. -/
theorem Ordered.login {right : Bool} (hs : Ordered cfg s) :
    Ordered cfg { s with attempts := s.attempts ++ [.arrived right] } := by
  have hunanswered :
      (s.attempts ++ [Attempt.arrived right]).countP Attempt.unanswered =
        s.attempts.countP Attempt.unanswered := by
    simp [Attempt.unanswered]
  have hpending : pending (s.attempts ++ [.arrived right]) = pending s.attempts := by
    simp [pending]
  refine ⟨?_, ?_, ?_, ?_⟩
  · simp only [hunanswered]
    exact hs.counted
  · simp only [hpending]
    exact hs.room
  · intro hnone
    obtain ⟨hunlocked, hlocking, hcount⟩ := hs.opened hnone
    refine ⟨hunlocked, fun u => ?_, hcount⟩
    simpa using hlocking u
  · intro k since hreached
    obtain ⟨hsince, hcount, hstage⟩ := hs.reached k since hreached
    refine ⟨hsince, hcount, hstage.imp (fun hclosing => ?_) (fun hclosed => ?_)⟩
    · refine ⟨hclosing.unlocked, ?_, ?_⟩
      · intro j z hj hz
        rcases getElem?_append_singleton_cases hz with hz | ⟨-, rfl⟩
        · exact hclosing.others j z hj hz
        · rfl
      · rcases hclosing.own with hown | ⟨u, hown, hle⟩
        · exact .inl (getElem?_append_of_eq_some hown _)
        · exact .inr ⟨u, getElem?_append_of_eq_some hown _, hle⟩
    · exact ⟨hclosed.locked, forall_mem_append_singleton hclosed.attempts (.inl rfl)⟩

/-- **Every action that meets the condition keeps the invariant.** -/
theorem ordered_step {a : Action} (hs : Ordered cfg s) (ha : Orderly cfg s a)
    (h : step cfg s a = some t) : Ordered cfg t := by
  cases a with
  | login right =>
    obtain rfl := some.inj h
    exact hs.login
  | run i now allowed =>
    obtain ⟨hclock, attempt, row, next, hx, hrun, ht⟩ := step_run h
    have ha := ha attempt hx
    cases attempt with
    | arrived right =>
      simp only [runAttempt] at hrun
      split at hrun
      · cases hrun
        exact hs.set (by rw [ht]) (by rw [ht]) (by rw [ht]; exact hclock) (by rw [ht]; exact ⟨rfl, rfl⟩)
          hx rfl rfl (by simp) (.inl rfl)
      · rename_i hunlocked
        have hunlocked : isLocked now s.row = false := by simpa using hunlocked
        obtain ⟨hsettled, hroom⟩ := ha hunlocked
        split at hrun
        · rename_i hallowed
          cases hrun
          refine hs.set (by rw [ht]) (by rw [ht]) (by rw [ht]; exact hclock)
            (by rw [ht]; exact ⟨rfl, rfl⟩) hx rfl rfl ?_ (.inr ⟨hsettled, ?_⟩)
          · intro hwrong
            cases hwrong
            exact hroom rfl hallowed
          · rw [ht]
            exact not_isLocked hunlocked
        · cases hrun
          exact hs.set (by rw [ht]) (by rw [ht]) (by rw [ht]; exact hclock)
            (by rw [ht]; exact ⟨rfl, rfl⟩) hx rfl rfl (by simp) (.inl rfl)
    | admitted right =>
      cases right with
      | true =>
        cases hrun
        exact hs.reset hx ha ht
      | false =>
        cases hrun
        refine hs.record now hx ha ?_
        rw [ht]
        simp [unauthorizedAfter, reachedAfter]
    | recorded =>
      have hpos := hs.count_pos hx rfl
      have hsome : s.row.isSome = true := by
        cases hrow : s.row with
        | none => simp [hrow] at hpos
        | some f => rfl
      simp only [runAttempt, hsome, true_and] at hrun
      split at hrun
      · rename_i hmax
        cases hrun
        exact hs.locking hclock hx hmax ht
      · rename_i hmax
        cases hrun
        exact hs.refuse hx (Nat.lt_of_not_le hmax) ht
    | locking u =>
      cases hrun
      exact hs.lock hclock hx ht
    | answered answer => cases hrun

/-- The account is shut to the other attempts. -/
theorem shut_step {j : ℕ} {allowed : Bool} (hs : Ordered cfg s)
    (ha : Orderly cfg s (.run j now allowed)) (h : step cfg s (.run j now allowed) = some t)
    (hreached : s.reached = some (k, since)) (hj : j ≠ k)
    (hnow : now < since + cfg.loginLockoutMs) :
    t.row = s.row ∧ t.attempts[j]? = some (.answered .accountLocked) := by
  obtain ⟨hclock, attempt, row, next, hx, hrun, rfl⟩ := step_run h
  obtain ⟨-, hcount, hstage⟩ := hs.reached k since hreached
  have ha := ha attempt hx
  have hrest : attempt.atRest = true := by
    rcases hstage with hclosing | hclosed
    · exact hclosing.others j attempt hj hx
    · rcases hclosed.attempts attempt (mem_of_getElem? hx) with hrest | ⟨-, hlate⟩
      · exact hrest
      · omega
  obtain ⟨hlt, -⟩ := List.getElem?_eq_some_iff.mp hx
  cases attempt with
  | arrived right =>
    have hlocked : isLocked now s.row = true := by
      by_contra hunlocked
      -- the check would find the account between the threshold and the lock
      obtain ⟨hsettled, -⟩ := ha (by simpa using hunlocked)
      rcases hstage with hclosing | hclosed
      · rcases hsettled with hcounter | hlock
        · omega
        · rw [hclosing.unlocked] at hlock
          cases hlock
      · obtain ⟨u, hu, hle⟩ := hclosed.locked
        exact hunlocked (isLocked_iff.mpr ⟨u, hu, by omega⟩)
    simp only [runAttempt, hlocked, if_true] at hrun
    cases hrun
    exact ⟨rfl, getElem?_set_self hlt⟩
  | answered answer => cases hrun
  | _ => cases hrest

/-! ## The result -/

theorem bounded_step {a : Action} (hs : Ordered cfg s) (ha : Orderly cfg s a)
    (h : step cfg s a = some t) : Bounded cfg s a t where
  unauthorized_le := (ordered_step hs ha h).unauthorized_le
  shut := by
    intro k since hreached j now allowed hrun hj hnow
    subst hrun
    exact shut_step hs ha h hreached hj hnow

/-- **The lockout bounds guessing in every run whose attempts are in order.** -/
theorem lockout_bounds (cfg : Config) (clock : ℕ) (as : List Action)
    (h : Machine.Meets (step cfg) (Orderly cfg) (start clock) as) :
    Machine.Each (step cfg) (Bounded cfg) (start clock) as :=
  Machine.each_of_meets (I := Ordered cfg) (fun _ _ _ => ordered_step) (fun _ _ _ => bounded_step)
    (ordered_start cfg clock) h

/-- Ten guesses one after the other, and then the right password. -/
def guesses : List Action :=
  (List.range 10).flatMap (fun i => [.login false] ++ List.replicate 3 (.run i i true)) ++
    [.run 9 9 true, .login true, .run 10 60000 true]

/-- The attempt with the right password is the eleventh, and it is locked out. -/
theorem guesses_bounded : Machine.Each (step defaults) (Bounded defaults) (start 0) guesses ∧
    (Machine.run (step defaults) (start 0) guesses).any (fun s => s.unauthorized = 10 ∧
      s.attempts[10]? = some (.answered .accountLocked)) = true :=
  ⟨lockout_bounds defaults 0 guesses (by decide), by decide⟩

/-! ## Guesses that overlap -/

/-- Eleven guesses that all find the account unlocked. -/
def overlapping : List Action :=
  List.replicate 11 (.login false) ++ (List.range 11).map (fun i => .run i 0 true) ++
    (List.range 11).map (fun i => .run i 0 true) ++
      (List.range 11).flatMap (fun i => List.replicate 2 (.run i 0 true))

/-- All of them are answered 401. -/
theorem overlapping_guesses_pass :
    ¬ ∀ as, Machine.Each (step defaults) (Bounded defaults) (start 0) as := by
  intro h
  have hrun : (Machine.run (step defaults) (start 0) overlapping).any
      (fun s => 10 < s.unauthorized) = true := by decide
  obtain ⟨t, ht, hlt⟩ := (Option.any_eq_true _ _).mp hrun
  have halways : Machine.Always (step defaults) (fun s => s.unauthorized ≤ 10) (start 0) overlapping :=
    Machine.always_iff_each.mpr ⟨Nat.zero_le _, (h overlapping).mono fun _ _ _ hb => hb.unauthorized_le⟩
  have := halways.last ht
  simp at hlt
  omega

end FestivalPlanner.Auth.Lockout
