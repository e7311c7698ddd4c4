import FestivalPlanner.Lib.InFlight
import FestivalPlanner.Lib.Keyed
import FestivalPlanner.Lib.Machine

/-!
# Links that reset a password

`POST /forgot-password` and `POST /reset-password` of `routes/email-auth.ts` and the reset links of
an admin (`routes/admin-users.ts`), for one user and in one process, statement by statement.

* `ResetToken` — a row of `password_reset_tokens`; the links of an admin are also kept in memory,
  under the same token;
* `Task`, `runTask` — a request at its next statement;
* `step` — the machine, with the history of what was issued and what changed the password;
* `SingleUse`, `LastWins` — what the history is to be like;
* `Closes` — a reset finds every other token, and its own row, no longer usable;
* `resets_last` — in the runs that meet that condition both hold.

Tokens are random, so each is taken once, and here they are numbered.
-/

namespace FestivalPlanner.Auth.PasswordReset

open List Option Keyed InFlight

/-! ## Tables -/

/-- A row of `password_reset_tokens` of the user. -/
structure ResetToken where
  token : ℕ
  expiresAt : ℕ
  /-- `used_at` is set -/
  used : Bool
  deriving DecidableEq

/-- An entry of `_adminResetTokens`. -/
structure AdminToken where
  token : ℕ
  expiresAt : ℕ
  deriving DecidableEq

/-- What happened to the user's tokens and password. -/
inductive Event where
  | issued (token : ℕ)
  | changed (token : ℕ)
  deriving DecidableEq

/-- The row can be consumed. -/
def ResetToken.live (now : ℕ) (r : ResetToken) : Bool := !r.used && decide (now < r.expiresAt)

/-- `consumeResetToken`: the rows afterwards, and whether one was consumed. -/
def consumeResetToken (now token : ℕ) (rows : List ResetToken) : List ResetToken × Bool :=
  (rows.map (fun r => if r.token = token ∧ r.live now then { r with used := true } else r),
    rows.any (fun r => r.token = token ∧ r.live now))

/-- `invalidateResetTokens` -/
def invalidateResetTokens (rows : List ResetToken) : List ResetToken :=
  rows.map (fun r => if r.used then r else { r with used := true })

/-! ## Requests -/

/-- A request at its next statement, with what it has read. -/
inductive Task where
  /-- `POST /forgot-password`: `invalidateResetTokens` -/
  | forgot
  /-- `createResetToken` -/
  | forgotCreate
  /-- `POST /admin/users/:id/reset-link`: the row is inserted -/
  | adminLink
  /-- and the token kept in memory -/
  | adminKeep (token expiresAt : ℕ)
  /-- `POST /reset-password`: `resolveResetToken` looks into the memory -/
  | reset (token : ℕ) (newPassword : String)
  /-- and consumes the row -/
  | resetConsume (token : ℕ) (newPassword : String)
  /-- the password is updated -/
  | resetUpdate (token : ℕ) (newPassword : String)
  /-- sessions and refresh tokens are gone, and the token leaves the memory -/
  | resetFinish (token : ℕ)
  | succeeded
  | failed
  deriving DecidableEq

/-- A request that has just arrived. -/
def Task.isRequest : Task → Bool
  | .forgot | .adminLink | .reset _ _ => true
  | _ => false

/-- What the statements read and write. -/
structure Db where
  password : String
  rows : List ResetToken
  /-- `_adminResetTokens` -/
  memory : List AdminToken
  nextToken : ℕ
  deriving DecidableEq

/-- An hour, and `RESET_TOKEN_TTL`. -/
structure Config where
  forgotTtl : ℕ
  resetTokenTtl : ℕ

/-- The row of a token that is issued. -/
def Db.issue (db : Db) (expiresAt : ℕ) : Db :=
  { db with
    rows := db.rows ++ [{ token := db.nextToken, expiresAt := expiresAt, used := false }]
    nextToken := db.nextToken + 1 }

/-- The next statement of a request. -/
def runTask (cfg : Config) (now : ℕ) (db : Db) : Task → Option (Db × Task)
  | .forgot => some ({ db with rows := invalidateResetTokens db.rows }, .forgotCreate)
  | .forgotCreate => some (db.issue (now + cfg.forgotTtl), .succeeded)
  | .adminLink =>
      some (db.issue (now + cfg.resetTokenTtl), .adminKeep db.nextToken (now + cfg.resetTokenTtl))
  | .adminKeep token expiresAt =>
      some ({ db with memory := upsert AdminToken.token ⟨token, expiresAt⟩ db.memory },
        .succeeded)
  | .reset token newPassword =>
      match lookup AdminToken.token token db.memory with
      | some entry =>
          if entry.expiresAt < now then
            some ({ db with memory := erase AdminToken.token token db.memory }, .failed)
          else some (db, .resetUpdate token newPassword)
      | none => some (db, .resetConsume token newPassword)
  | .resetConsume token newPassword =>
      let consumed := consumeResetToken now token db.rows
      some ({ db with rows := consumed.1 },
        if consumed.2 then .resetUpdate token newPassword else .failed)
  | .resetUpdate token newPassword => some ({ db with password := newPassword }, .resetFinish token)
  | .resetFinish token =>
      some ({ db with memory := erase AdminToken.token token db.memory }, .succeeded)
  | .succeeded => none
  | .failed => none

/-! ## The machine -/

/-- The tables, the requests and the clock.  No statement reads what follows: the history, and
below which number the tokens were issued before the password was last changed. -/
structure State where
  db : Db
  tasks : List Task
  clock : ℕ
  history : List Event
  bar : ℕ
  deriving DecidableEq

/-- A request arrives or executes its next statement, or expired entries are swept from memory. -/
inductive Action where
  | request (task : Task)
  | run (i now : ℕ)
  | sweep (now : ℕ)
  deriving DecidableEq

/-- What a statement adds to the history. -/
def eventsOf (db : Db) : Task → List Event
  | .forgotCreate | .adminLink => [.issued db.nextToken]
  | .resetUpdate token _ => [.changed token]
  | _ => []

/-- Where the bar is after a statement. -/
def barAfter (db : Db) (bar : ℕ) : Task → ℕ
  | .resetUpdate _ _ => db.nextToken
  | _ => bar

/-- One action. -/
def step (cfg : Config) (s : State) : Action → Option State
  | .request task => if task.isRequest then some { s with tasks := s.tasks ++ [task] } else none
  | .run i now =>
      if s.clock ≤ now then do
        let task ← s.tasks[i]?
        let (db, next) ← runTask cfg now s.db task
        return {
          db := db
          tasks := s.tasks.set i next
          clock := now
          history := s.history ++ eventsOf s.db task
          bar := barAfter s.db s.bar task }
      else none
  | .sweep now =>
      if s.clock ≤ now then
        some { s with
          db := { s.db with memory := s.db.memory.filter (fun e => now ≤ e.expiresAt) }
          clock := now }
      else none

/-- A user without tokens. -/
def start (password : String) (clock : ℕ) : State :=
  { db := { password := password, rows := [], memory := [], nextToken := 0 }
    tasks := [], clock := clock, history := [], bar := 0 }

/-! ## The property and the condition -/

/-- Every token changes the password at most once. -/
def SingleUse (history : List Event) : Prop := ∀ token, history.count (.changed token) ≤ 1

/-- After a reset no token that was issued before it changes the password. -/
def LastWins (history : List Event) : Prop :=
  ∀ pre post token, history = pre ++ .changed token :: post →
    ∀ token', .issued token' ∈ pre → .changed token' ∉ post

structure ResetsLast (s : State) : Prop where
  singleUse : SingleUse s.history
  lastWins : LastWins s.history

/-- The request has been let through, or is about to put a token into the memory. -/
def Task.inTheWay : Task → Bool
  | .resetUpdate _ _ | .adminKeep _ _ => true
  | _ => false

/-- The condition on one statement.  When the password is updated, no row is live, the memory holds
no other token that has not expired, and no other request is on its way to update it or to put a
token into the memory; and a token is not looked up in the memory while a request that has used it
is about to delete it there. -/
def ClosesAt (s : State) (i now : ℕ) : Task → Prop
  | .resetUpdate token _ => (∀ r ∈ s.db.rows, r.live now = false) ∧
      (∀ e ∈ s.db.memory, e.token = token ∨ e.expiresAt < now) ∧
      ∀ x ∈ s.tasks.eraseIdx i, x.inTheWay = false
  | .reset token _ => (lookup AdminToken.token token s.db.memory).isSome = true →
      .resetFinish token ∉ s.tasks
  | _ => True

def Closes (s : State) : Action → Prop
  | .run i now => ∀ x ∈ s.tasks[i]?, ClosesAt s i now x
  | .request _ | .sweep _ => True

instance (s : State) (i now : ℕ) (x : Task) : Decidable (ClosesAt s i now x) := by
  cases x <;> unfold ClosesAt <;> infer_instance

instance (s : State) : ∀ a, Decidable (Closes s a)
  | .run i now => inferInstanceAs (Decidable (∀ x ∈ s.tasks[i]?, ClosesAt s i now x))
  | .request _ | .sweep _ => .isTrue trivial

/-! ## Histories -/

/-- Where an event lies in a history that has grown by one. -/
theorem split_append_singleton {history pre post : List Event} {e x : Event}
    (h : history ++ [e] = pre ++ x :: post) :
    (∃ post', post = post' ++ [e] ∧ history = pre ++ x :: post') ∨
      post = [] ∧ history = pre ∧ e = x := by
  rcases eq_nil_or_concat' post with rfl | ⟨post', last, rfl⟩
  · obtain ⟨hhistory, he⟩ := append_inj' h rfl
    exact .inr ⟨rfl, hhistory, singleton_inj.mp he⟩
  · have h' : history ++ [e] = (pre ++ x :: post') ++ [last] := by simpa using h
    obtain ⟨hhistory, he⟩ := append_inj' h' rfl
    rw [singleton_inj.mp he]
    exact .inl ⟨post', rfl, hhistory⟩

/-- The tokens of a history lie below the number that is issued next, and those that were used or
issued before a change below the bar. -/
structure Barred (history : List Event) (bar nextToken : ℕ) : Prop where
  bar_le : bar ≤ nextToken
  issued : ∀ k, .issued k ∈ history → k < nextToken
  changed : ∀ k, .changed k ∈ history → k < bar
  before : ∀ pre post k, history = pre ++ .changed k :: post → ∀ k', .issued k' ∈ pre → k' < bar

variable {history : List Event} {bar nextToken : ℕ}

theorem Barred.issue (h : Barred history bar nextToken) :
    Barred (history ++ [.issued nextToken]) bar (nextToken + 1) where
  bar_le := Nat.le_succ_of_le h.bar_le
  issued := by
    intro k hk
    rcases mem_append.mp hk with hk | hk
    · exact Nat.lt_succ_of_lt (h.issued k hk)
    · cases mem_singleton.mp hk
      exact Nat.lt_succ_self _
  changed := by
    intro k hk
    rcases mem_append.mp hk with hk | hk
    · exact h.changed k hk
    · cases mem_singleton.mp hk
  before := by
    intro pre post k heq
    rcases split_append_singleton heq with ⟨post', -, hold⟩ | ⟨-, -, he⟩
    · exact h.before pre post' k hold
    · cases he

variable {token : ℕ} {rows : List ResetToken}

theorem Barred.change (h : Barred history bar nextToken) (htoken : token < nextToken) :
    Barred (history ++ [.changed token]) nextToken nextToken where
  bar_le := le_rfl
  issued := by
    intro k hk
    rcases mem_append.mp hk with hk | hk
    · exact h.issued k hk
    · cases mem_singleton.mp hk
  changed := by
    intro k hk
    rcases mem_append.mp hk with hk | hk
    · exact lt_of_lt_of_le (h.changed k hk) h.bar_le
    · cases mem_singleton.mp hk
      exact htoken
  before := by
    intro pre post k heq k' hk'
    rcases split_append_singleton heq with ⟨post', -, hold⟩ | ⟨-, rfl, -⟩
    · exact lt_of_lt_of_le (h.before pre post' k hold k' hk') h.bar_le
    · exact h.issued k' hk'

/-- A token that is issued does not touch what was reset. -/
theorem lastWins_issue (h : LastWins history) : LastWins (history ++ [.issued token]) := by
  intro pre post k heq k' hk'
  rcases split_append_singleton heq with ⟨post', rfl, hold⟩ | ⟨-, -, he⟩
  · simpa using h pre post' k hold k' hk'
  · cases he

/-- A token above the bar may change the password. -/
theorem lastWins_change (h : LastWins history) (hbarred : Barred history bar nextToken)
    (htoken : bar ≤ token) : LastWins (history ++ [.changed token]) := by
  intro pre post k heq k' hk'
  rcases split_append_singleton heq with ⟨post', rfl, hold⟩ | ⟨rfl, -, -⟩
  · have hbefore := hbarred.before pre post' k hold k' hk'
    have hne : k' ≠ token := by omega
    simpa [hne] using h pre post' k hold k' hk'
  · exact not_mem_nil

theorem singleUse_issue (h : SingleUse history) : SingleUse (history ++ [.issued token]) := by
  intro k
  simpa [count_append] using h k

theorem singleUse_change (h : SingleUse history) (hbarred : Barred history bar nextToken)
    (htoken : bar ≤ token) : SingleUse (history ++ [.changed token]) := by
  intro k
  rw [count_append]
  by_cases hk : k = token
  · have hnew : .changed k ∉ history := by
      intro hmem
      have := hbarred.changed k hmem
      omega
    rw [count_eq_zero.mpr hnew, hk]
    simp
  · have hne : (Event.changed token == Event.changed k) = false := by simpa using Ne.symm hk
    simpa [count_singleton, hne] using h k

/-! ## The invariant -/

/-- What the steps keep whose condition is met: what can still change the password was issued
after it was last changed. -/
structure Inv (s : State) : Prop where
  barred : Barred s.history s.bar s.db.nextToken
  resets : ResetsLast s
  rows : ∀ r ∈ s.db.rows, r.used = true ∨ r.expiresAt ≤ s.clock ∨
    s.bar ≤ r.token ∧ r.token < s.db.nextToken
  memory : ∀ e ∈ s.db.memory, .resetFinish e.token ∈ s.tasks ∨ e.expiresAt < s.clock ∨
    s.bar ≤ e.token ∧ e.token < s.db.nextToken
  keeps : ∀ k expiresAt, .adminKeep k expiresAt ∈ s.tasks → s.bar ≤ k ∧ k < s.db.nextToken
  updates : ∀ k newPassword, .resetUpdate k newPassword ∈ s.tasks → s.bar ≤ k ∧ k < s.db.nextToken

theorem inv_start (password : String) (clock : ℕ) : Inv (start password clock) where
  barred := {
    bar_le := le_rfl
    issued := fun _ h => nomatch h
    changed := fun _ h => nomatch h
    before := fun pre _ _ h => by simp [start] at h }
  resets := ⟨fun _ => Nat.zero_le _, fun pre _ _ h => by simp [start] at h⟩
  rows := fun _ h => nomatch h
  memory := fun _ h => nomatch h
  keeps := fun _ _ h => nomatch h
  updates := fun _ _ h => nomatch h

/-! ## The steps -/

variable {cfg : Config} {s t : State} {i now : ℕ} {task next : Task} {db : Db}

theorem step_run (h : step cfg s (.run i now) = some t) :
    s.clock ≤ now ∧ ∃ task db next, s.tasks[i]? = some task ∧
      runTask cfg now s.db task = some (db, next) ∧
      t = {
        db := db
        tasks := s.tasks.set i next
        clock := now
        history := s.history ++ eventsOf s.db task
        bar := barAfter s.db s.bar task } := by
  simp only [step, ite_none_right_eq_some, bind_eq_bind, bind_eq_some_iff] at h
  obtain ⟨hclock, task, htask, ⟨db, next⟩, hrun, ht⟩ := h
  exact ⟨hclock, task, db, next, htask, hrun, (some.inj ht).symm⟩

/-- A statement that neither issues a token nor changes the password keeps the invariant, when
what it leaves of the rows, the memory and its own request is as before. -/
theorem Inv.quiet {memory : List AdminToken} (hs : Inv s) (hclock : s.clock ≤ now)
    (htask : s.tasks[i]? = some task) (hrows : ∀ r ∈ rows, r.used = true ∨ r ∈ s.db.rows)
    (hmemory : ∀ e ∈ memory, task ≠ .resetFinish e.token ∧ e ∈ s.db.memory ∨
      s.bar ≤ e.token ∧ e.token < s.db.nextToken)
    (hkeep : ∀ k expiresAt, next ≠ .adminKeep k expiresAt)
    (hupdate : ∀ k newPassword, next = .resetUpdate k newPassword →
      s.bar ≤ k ∧ k < s.db.nextToken) :
    Inv { s with
      db := { s.db with rows := rows, memory := memory }
      tasks := s.tasks.set i next, clock := now } where
  barred := hs.barred
  resets := ⟨hs.resets.singleUse, hs.resets.lastWins⟩
  rows := by
    intro r hr
    rcases hrows r hr with hused | hr
    · exact .inl hused
    · exact (hs.rows r hr).imp_right fun h => h.imp_left fun hle => le_trans hle hclock
  memory := by
    intro e he
    rcases hmemory e he with ⟨hne, he⟩ | hbar
    · rcases hs.memory e he with hfinish | hexpired | hbar
      · rcases mem_set_or htask hfinish next with heq | hmem
        · exact absurd heq.symm hne
        · exact .inl hmem
      · exact .inr (.inl (lt_of_lt_of_le hexpired hclock))
      · exact .inr (.inr hbar)
    · exact .inr (.inr hbar)
  keeps := by
    intro k expiresAt hmem
    rcases mem_or_eq_of_mem_set hmem with hmem | heq
    · exact hs.keeps k expiresAt hmem
    · exact absurd heq.symm (hkeep k expiresAt)
  updates := by
    intro k newPassword hmem
    rcases mem_or_eq_of_mem_set hmem with hmem | heq
    · exact hs.updates k newPassword hmem
    · exact hupdate k newPassword heq.symm

/-- A token that is issued keeps the invariant. -/
theorem Inv.issue {expiresAt : ℕ} (hs : Inv s) (hclock : s.clock ≤ now)
    (htask : s.tasks[i]? = some task) (hfinish : ∀ k, task ≠ .resetFinish k)
    (hnext : next = .succeeded ∨ next = .adminKeep s.db.nextToken expiresAt) :
    Inv { s with
      db := s.db.issue expiresAt, tasks := s.tasks.set i next, clock := now
      history := s.history ++ [.issued s.db.nextToken] } where
  barred := hs.barred.issue
  resets := ⟨singleUse_issue hs.resets.singleUse, lastWins_issue hs.resets.lastWins⟩
  rows := by
    apply forall_mem_append_singleton
    · intro r hr
      rcases hs.rows r hr with hused | hexpired | ⟨hbar, hlt⟩
      · exact .inl hused
      · exact .inr (.inl (le_trans hexpired hclock))
      · exact .inr (.inr ⟨hbar, Nat.lt_succ_of_lt hlt⟩)
    · exact .inr (.inr ⟨hs.barred.bar_le, Nat.lt_succ_self _⟩)
  memory := by
    intro e he
    rcases hs.memory e he with hmem | hexpired | ⟨hbar, hlt⟩
    · rcases mem_set_or htask hmem next with heq | hmem
      · exact absurd heq.symm (hfinish _)
      · exact .inl hmem
    · exact .inr (.inl (lt_of_lt_of_le hexpired hclock))
    · exact .inr (.inr ⟨hbar, Nat.lt_succ_of_lt hlt⟩)
  keeps := by
    intro k expires hmem
    rcases mem_or_eq_of_mem_set hmem with hmem | heq
    · obtain ⟨hbar, hlt⟩ := hs.keeps k expires hmem
      exact ⟨hbar, Nat.lt_succ_of_lt hlt⟩
    · rcases hnext with rfl | rfl
      · cases heq
      · cases heq
        exact ⟨hs.barred.bar_le, Nat.lt_succ_self _⟩
  updates := by
    intro k newPassword hmem
    rcases mem_or_eq_of_mem_set hmem with hmem | heq
    · obtain ⟨hbar, hlt⟩ := hs.updates k newPassword hmem
      exact ⟨hbar, Nat.lt_succ_of_lt hlt⟩
    · rcases hnext with rfl | rfl <;> cases heq

/-- A reset that finds all other tokens unusable keeps the invariant. -/
theorem Inv.change {newPassword : String} (hs : Inv s)
    (htask : s.tasks[i]? = some (.resetUpdate token newPassword))
    (hcloses : ClosesAt s i now (.resetUpdate token newPassword)) :
    Inv {
      db := { s.db with password := newPassword }
      tasks := s.tasks.set i (.resetFinish token), clock := now
      history := s.history ++ [.changed token], bar := s.db.nextToken } where
  barred := hs.barred.change (hs.updates _ _ (mem_of_getElem? htask)).2
  resets := by
    have hbar := (hs.updates _ _ (mem_of_getElem? htask)).1
    exact ⟨singleUse_change hs.resets.singleUse hs.barred hbar,
      lastWins_change hs.resets.lastWins hs.barred hbar⟩
  rows := by
    intro r hr
    have hdead := hcloses.1 r hr
    simp only [ResetToken.live, Bool.and_eq_false_iff, Bool.not_eq_false',
      decide_eq_false_iff_not, Nat.not_lt] at hdead
    exact hdead.imp_right .inl
  memory := by
    intro e he
    rcases hcloses.2.1 e he with rfl | hexpired
    · exact .inl (mem_set_self htask _)
    · exact .inr (.inl hexpired)
  keeps := by
    intro k expiresAt hmem
    obtain ⟨j, hj⟩ := mem_iff_getElem?.mp hmem
    rcases getElem?_set_cases hj with ⟨-, heq⟩ | ⟨hne, hj⟩
    · cases heq
    · have := hcloses.2.2 _ (mem_eraseIdx_iff_getElem?.mpr ⟨j, hne, hj⟩)
      cases this
  updates := by
    intro k newPassword' hmem
    obtain ⟨j, hj⟩ := mem_iff_getElem?.mp hmem
    rcases getElem?_set_cases hj with ⟨-, heq⟩ | ⟨hne, hj⟩
    · cases heq
    · have := hcloses.2.2 _ (mem_eraseIdx_iff_getElem?.mpr ⟨j, hne, hj⟩)
      cases this

/-- A token that the memory lets through was issued after the password was last changed. -/
theorem Inv.of_lookup {entry : AdminToken} (hs : Inv s) (hclock : s.clock ≤ now)
    (hlookup : lookup AdminToken.token token s.db.memory = some entry)
    (hlive : ¬ entry.expiresAt < now) (hfinish : .resetFinish token ∉ s.tasks) :
    s.bar ≤ token ∧ token < s.db.nextToken := by
  have htoken : entry.token = token := by simpa using find?_some hlookup
  subst htoken
  rcases hs.memory entry (mem_of_find?_eq_some hlookup) with hmem | hexpired | hbar
  · exact absurd hmem hfinish
  · omega
  · exact hbar

/-- So was one whose row is consumed. -/
theorem Inv.of_consumed (hs : Inv s) (hclock : s.clock ≤ now)
    (hconsumed : (consumeResetToken now token s.db.rows).2 = true) :
    s.bar ≤ token ∧ token < s.db.nextToken := by
  obtain ⟨r, hr, hlive⟩ := List.any_eq_true.mp hconsumed
  simp only [ResetToken.live, Bool.and_eq_true, Bool.not_eq_true', decide_eq_true_eq] at hlive
  obtain ⟨rfl, hunused, hlate⟩ := hlive
  rcases hs.rows r hr with hused | hexpired | hbar
  · rw [hunused] at hused
    cases hused
  · omega
  · exact hbar

theorem mem_consumeResetToken {r : ResetToken} (h : r ∈ (consumeResetToken now token rows).1) :
    r.used = true ∨ r ∈ rows := by
  obtain ⟨q, hq, rfl⟩ := List.mem_map.mp h
  split
  · exact .inl rfl
  · exact .inr hq

theorem mem_invalidateResetTokens {r : ResetToken} (h : r ∈ invalidateResetTokens rows) :
    r.used = true := by
  obtain ⟨q, hq, rfl⟩ := List.mem_map.mp h
  split
  · assumption
  · rfl

/-- The next statement of a request that meets the condition keeps the invariant. -/
theorem Inv.run (hs : Inv s) (ha : Closes s (.run i now)) (h : step cfg s (.run i now) = some t) :
    Inv t := by
  obtain ⟨hclock, task, db, next, htask, hrun, rfl⟩ := step_run h
  have hcloses := ha task htask
  have hsame : ∀ e ∈ s.db.memory, (∀ k, task ≠ .resetFinish k) →
      task ≠ .resetFinish e.token ∧ e ∈ s.db.memory ∨ s.bar ≤ e.token ∧ e.token < s.db.nextToken :=
    fun e he hne => .inl ⟨hne _, he⟩
  cases task with
  | forgot =>
    cases hrun
    have hquiet : Inv { s with
        db := { s.db with rows := invalidateResetTokens s.db.rows }
        tasks := s.tasks.set i .forgotCreate, clock := now } :=
      hs.quiet hclock htask (fun r hr => .inl (mem_invalidateResetTokens hr))
        (fun e he => hsame e he (by simp)) (by simp) (by simp)
    simpa [eventsOf, barAfter] using hquiet
  | forgotCreate =>
    cases hrun
    have hissue : Inv { s with
        db := s.db.issue (now + cfg.forgotTtl), tasks := s.tasks.set i .succeeded, clock := now
        history := s.history ++ [.issued s.db.nextToken] } :=
      hs.issue hclock htask (by simp) (.inl rfl)
    exact hissue
  | adminLink =>
    cases hrun
    exact hs.issue hclock htask (by simp) (.inr rfl)
  | adminKeep token expiresAt =>
    cases hrun
    have hquiet : Inv { s with
        db := { s.db with
          memory := upsert AdminToken.token ⟨token, expiresAt⟩ s.db.memory }
        tasks := s.tasks.set i .succeeded, clock := now } := by
      refine hs.quiet hclock htask (fun r hr => .inr hr) (fun e he => ?_) (by simp) (by simp)
      rcases mem_or_eq_of_mem_upsert he with rfl | he
      · exact .inr (hs.keeps token expiresAt (mem_of_getElem? htask))
      · exact hsame e he (by simp)
    simpa [eventsOf, barAfter] using hquiet
  | reset token newPassword =>
    simp only [runTask] at hrun
    split at hrun
    · rename_i entry hlookup
      split at hrun
      · cases hrun
        have hquiet : Inv { s with
            db := { s.db with memory := erase AdminToken.token token s.db.memory }
            tasks := s.tasks.set i .failed, clock := now } :=
          hs.quiet hclock htask (fun r hr => .inr hr)
            (fun e he => hsame e (mem_erase.mp he).1 (by simp)) (by simp) (by simp)
        simpa [eventsOf, barAfter] using hquiet
      · rename_i hlive
        cases hrun
        have hquiet : Inv { s with
            tasks := s.tasks.set i (.resetUpdate token newPassword), clock := now } := by
          refine hs.quiet hclock htask (fun r hr => .inr hr) (fun e he => hsame e he (by simp))
            (by simp) ?_
          rintro k newPassword' ⟨⟩
          exact hs.of_lookup hclock hlookup hlive (hcloses (by simp [hlookup]))
        simpa [eventsOf, barAfter] using hquiet
    · cases hrun
      have hquiet : Inv { s with
          tasks := s.tasks.set i (.resetConsume token newPassword), clock := now } :=
        hs.quiet hclock htask (fun r hr => .inr hr) (fun e he => hsame e he (by simp))
          (by simp) (by simp)
      simpa [eventsOf, barAfter] using hquiet
  | resetConsume token newPassword =>
    cases hrun
    have hquiet : Inv { s with
        db := { s.db with rows := (consumeResetToken now token s.db.rows).1 }
        tasks := s.tasks.set i (if (consumeResetToken now token s.db.rows).2
          then .resetUpdate token newPassword else .failed), clock := now } := by
      refine hs.quiet hclock htask (fun r hr => mem_consumeResetToken hr)
        (fun e he => hsame e he (by simp)) (fun k expiresAt => by split <;> simp) ?_
      intro k newPassword' hnext
      split at hnext
      · rename_i hconsumed
        cases hnext
        exact hs.of_consumed hclock hconsumed
      · cases hnext
    simpa [eventsOf, barAfter] using hquiet
  | resetUpdate token newPassword =>
    cases hrun
    exact hs.change htask hcloses
  | resetFinish token =>
    cases hrun
    have hquiet : Inv { s with
        db := { s.db with memory := erase AdminToken.token token s.db.memory }
        tasks := s.tasks.set i .succeeded, clock := now } := by
      refine hs.quiet hclock htask (fun r hr => .inr hr) (fun e he => ?_) (by simp) (by simp)
      obtain ⟨he, hne⟩ := mem_erase.mp he
      exact .inl ⟨fun heq => hne (Task.resetFinish.inj heq).symm, he⟩
    simpa [eventsOf, barAfter] using hquiet
  | succeeded => cases hrun
  | failed => cases hrun

theorem Inv.request (hs : Inv s) (h : step cfg s (.request task) = some t) : Inv t := by
  simp only [step, ite_none_right_eq_some] at h
  obtain ⟨hrequest, h⟩ := h
  obtain rfl := some.inj h
  refine ⟨hs.barred, ⟨hs.resets.singleUse, hs.resets.lastWins⟩, hs.rows, ?_, ?_, ?_⟩
  · intro e he
    exact (hs.memory e he).imp_left fun hmem => mem_append_left _ hmem
  · intro k expiresAt hmem
    rcases mem_append.mp hmem with hmem | hmem
    · exact hs.keeps k expiresAt hmem
    · rw [← mem_singleton.mp hmem] at hrequest
      cases hrequest
  · intro k newPassword hmem
    rcases mem_append.mp hmem with hmem | hmem
    · exact hs.updates k newPassword hmem
    · rw [← mem_singleton.mp hmem] at hrequest
      cases hrequest

theorem Inv.sweep (hs : Inv s) (h : step cfg s (.sweep now) = some t) : Inv t := by
  simp only [step, ite_none_right_eq_some] at h
  obtain ⟨hclock, h⟩ := h
  obtain rfl := some.inj h
  refine ⟨hs.barred, ⟨hs.resets.singleUse, hs.resets.lastWins⟩, ?_, ?_, hs.keeps, hs.updates⟩
  · intro r hr
    exact (hs.rows r hr).imp_right fun h => h.imp_left fun hle => le_trans hle hclock
  · intro e he
    exact (hs.memory e (mem_of_mem_filter he)).imp_right fun h =>
      h.imp_left fun hlt => lt_of_lt_of_le hlt hclock

/-- **Every action that meets the condition keeps the invariant.** -/
theorem inv_step {a : Action} (hs : Inv s) (ha : Closes s a) (h : step cfg s a = some t) :
    Inv t := by
  cases a with
  | request task => exact hs.request h
  | run i now => exact hs.run ha h
  | sweep now => exact hs.sweep h

/-! ## The result -/

/-- **A token resets the password once and the last reset wins in every run whose resets close the
other tokens.** -/
theorem resets_last (cfg : Config) (password : String) (clock : ℕ) (as : List Action)
    (h : Machine.Meets (step cfg) Closes (start password clock) as) :
    Machine.Always (step cfg) ResetsLast (start password clock) as :=
  Machine.always_of_meets (I := Inv) (fun _ _ _ => inv_step) (fun _ hs => hs.resets)
    (inv_start password clock) h

/-- `DEFAULTS` -/
def defaults : Config := { forgotTtl := 60 * 60 * 1000, resetTokenTtl := 60 * 60 * 1000 }

/-- Two links are mailed, of which the second is good for the password. -/
def mailedTwice : List Action :=
  [.request .forgot, .run 0 0, .run 0 0, .request .forgot, .run 1 5, .run 1 5,
    .request (.reset 0 "first"), .run 2 6, .run 2 6, .request (.reset 1 "second"), .run 3 7,
    .run 3 7, .run 3 7, .run 3 7]

theorem mailedTwice_resetsLast :
    Machine.Always (step defaults) ResetsLast (start "old" 0) mailedTwice :=
  resets_last defaults "old" 0 mailedTwice (by decide)

/-! ## A link that is used again -/

/-- The link of an admin is used, which takes it from the memory, and then used again. -/
def adminTwice : List Action :=
  [.request .adminLink, .run 0 0, .run 0 0, .request (.reset 0 "first"), .run 1 1, .run 1 1,
    .run 1 1, .request (.reset 0 "second"), .run 2 2, .run 2 2, .run 2 2]

/-- Its row is still there, and it changes the password a second time. -/
theorem admin_link_works_twice :
    ¬ ∀ password clock as, Machine.Always (step defaults) ResetsLast (start password clock) as := by
  intro h
  have hrun : Machine.run (step defaults) (start "old" 0) adminTwice = some _ := rfl
  have honce := ((h "old" 0 adminTwice).last hrun).singleUse 0
  revert honce
  decide

end FestivalPlanner.Auth.PasswordReset
