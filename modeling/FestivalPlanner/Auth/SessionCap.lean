import FestivalPlanner.Lib.Eviction
import FestivalPlanner.Lib.InFlight
import FestivalPlanner.Lib.Keyed
import FestivalPlanner.Lib.Machine
import Mathlib.Data.List.Sort

/-!
# The sessions of a user under concurrent logins

The transactions of `createUserSession` of `lib/db/stores/sessions.ts` for one user, statement by
statement under READ COMMITTED: a statement sees the rows that were committed when it began and
those of its own transaction.

* `Call`, `runCall` — a call at its next statement.  The `SELECT … FOR UPDATE` takes two steps: it
  takes its snapshot, and gets its locks once no other call holds one on a row of the snapshot;
  rows that were deleted meanwhile are left out, and rows that were inserted are not added;
* `step` — the machine of all calls;
* `Kept` — what the limit promises: no more sessions than it, and each call keeps its own;
* `cap_kept` — so it is in every run whose snapshots are spaced and whose sessions are in time.
-/

namespace FestivalPlanner.Auth.SessionCap

open List Option Keyed InFlight

/-! ## Rows -/

/-- A row of the user in `user_sessions`. -/
structure Row where
  token : ℕ
  lastAccess : ℕ
  deriving DecidableEq

/-- `ORDER BY last_access ASC, token ASC` -/
def Row.le (x y : Row) : Prop :=
  x.lastAccess < y.lastAccess ∨ x.lastAccess = y.lastAccess ∧ x.token ≤ y.token

instance : DecidableRel Row.le := fun _ _ => inferInstanceAs (Decidable (_ ∨ _))

instance : Std.Total Row.le where
  total x y := by
    unfold Row.le
    omega

instance : IsTrans Row Row.le where
  trans x y z hxy hyz := by
    unfold Row.le at *
    omega

/-- The tokens of the rows in that order. -/
def orderTokens (rows : List Row) : List ℕ := (rows.insertionSort Row.le).map Row.token

/-! ## Calls -/

/-- A call of `createUserSession` at its next statement, with the row it inserts. -/
inductive Call where
  /-- `INSERT` -/
  | arrived (row : Row)
  /-- `SELECT token … FOR UPDATE` takes its snapshot -/
  | inserted (row : Row)
  /-- and waits for the locks -/
  | waiting (row : Row) (snapshot : List Row)
  /-- `DELETE`, which is visible with the `COMMIT` -/
  | selected (row : Row) (tokens : List ℕ)
  | finished
  deriving DecidableEq

/-- The row of a call that is not committed yet. -/
def Call.row? : Call → Option Row
  | .arrived row | .inserted row | .waiting row _ | .selected row _ => some row
  | .finished => none

/-- The tokens whose rows the call holds locks on. -/
def Call.held : Call → List ℕ
  | .selected _ tokens => tokens
  | _ => []

/-- The call has taken its snapshot, and is not committed. -/
@[grind =] def Call.selecting : Call → Bool
  | .waiting _ _ | .selected _ _ => true
  | _ => false

/-- What the `SELECT` of a call sees once it has its locks. -/
def visible (sessions : List Row) (row : Row) (snapshot : List Row) : List Row :=
  snapshot.filter (fun x => x ∈ sessions) ++ [row]

/-- The next statement of a call; `others` are the calls besides it. -/
def runCall (maxPerUser : ℕ) (sessions : List Row) (others : List Call) :
    Call → Option (List Row × Call)
  | .arrived row => some (sessions, .inserted row)
  | .inserted row => some (sessions, .waiting row sessions)
  | .waiting row snapshot =>
      if others.any (fun c => snapshot.any (fun x => x.token ∈ c.held)) then none
      else some (sessions, .selected row (orderTokens (visible sessions row snapshot)))
  | .selected row tokens =>
      some ((sessions ++ [row]).filter (fun x => x.token ∉ Eviction.evicted maxPerUser tokens),
        .finished)
  | .finished => none

/-! ## The machine -/

/-- The committed rows of the user, the calls, and whether one has been committed, which no
statement reads. -/
structure State where
  sessions : List Row
  calls : List Call
  committed : Bool
  deriving DecidableEq

inductive Action where
  | call (row : Row)
  | run (i : ℕ)
  deriving DecidableEq

/-- One action; a call brings a token that nobody has. -/
def step (maxPerUser : ℕ) (s : State) : Action → Option State
  | .call row =>
      if (∀ x ∈ s.sessions, x.token ≠ row.token) ∧
          ∀ c ∈ s.calls, ∀ q ∈ c.row?, q.token ≠ row.token then
        some { s with calls := s.calls ++ [.arrived row] }
      else none
  | .run i => do
      let call ← s.calls[i]?
      let (sessions, next) ← runCall maxPerUser s.sessions (s.calls.eraseIdx i) call
      return {
        sessions := sessions
        calls := s.calls.set i next
        committed := s.committed || decide (next = .finished) }

/-- The user has these sessions, and no call is in progress. -/
def start (sessions : List Row) : State :=
  { sessions := sessions, calls := [], committed := false }

/-! ## The property and the condition -/

/-- Once a call has been committed and none is in progress, the user has no more sessions than the
limit; and a call that is committed leaves its own session there. -/
structure Kept (maxPerUser : ℕ) (s : State) (a : Action) (t : State) : Prop where
  cap : t.committed = true → (∀ c ∈ t.calls, c = .finished) → t.sessions.length ≤ maxPerUser
  own : ∀ i, a = .run i → ∀ row tokens, s.calls[i]? = some (.selected row tokens) → row ∈ t.sessions

/-- How many calls have taken their snapshot and are not committed. -/
@[grind =] def selecting (calls : List Call) : ℕ := calls.countP Call.selecting

/-- Is `y` after `x` in the order of eviction? -/
def Row.laterThan (x y : Row) : Bool := decide (x.le y ∧ x.token ≠ y.token)

/-- The condition on one statement: a snapshot is taken while no other call is between its snapshot
and its commit, or while all of them have room; and when a call gets its locks, fewer sessions
than the limit come after its own. -/
def InTime (maxPerUser : ℕ) (s : State) : Call → Prop
  | .inserted _ => selecting s.calls = 0 ∨ s.sessions.length + selecting s.calls + 1 ≤ maxPerUser
  | .waiting row snapshot => (visible s.sessions row snapshot).countP row.laterThan < maxPerUser
  | .arrived _ | .selected _ _ | .finished => True

def Spaced (maxPerUser : ℕ) (s : State) : Action → Prop
  | .call _ => True
  | .run i => ∀ c ∈ s.calls[i]?, InTime maxPerUser s c

instance (maxPerUser : ℕ) (s : State) : ∀ c, Decidable (InTime maxPerUser s c) := fun c => by
  unfold InTime
  split <;> infer_instance

instance (maxPerUser : ℕ) (s : State) : ∀ a, Decidable (Spaced maxPerUser s a)
  | .call _ => .isTrue trivial
  | .run i => inferInstanceAs (Decidable (∀ c ∈ s.calls[i]?, InTime maxPerUser s c))

/-! ## Evicting -/

variable {maxPerUser : ℕ} {s t : State} {i : ℕ} {row : Row}

theorem laterThan_asymm (x y : Row) (h : x.laterThan y = true) : y.laterThan x = false := by
  obtain ⟨hle, hne⟩ := of_decide_eq_true h
  refine decide_eq_false ?_
  unfold Row.le at *
  omega

theorem orderTokens_perm (rows : List Row) : (orderTokens rows).Perm (rows.map Row.token) :=
  (perm_insertionSort Row.le rows).map _

/-- A session with fewer than the limit after it is not evicted. -/
theorem not_mem_evicted {rows : List Row} (hmem : row ∈ rows)
    (hunique : (rows.map Row.token).Nodup) (hafter : rows.countP row.laterThan < maxPerUser) :
    row.token ∉ Eviction.evicted maxPerUser (orderTokens rows) := by
  have hperm := perm_insertionSort Row.le rows
  have hsorted : (rows.insertionSort Row.le).Pairwise (fun x y => x.laterThan y = true) := by
    have hle := pairwise_insertionSort Row.le rows
    have hne : (rows.insertionSort Row.le).Pairwise (fun x y => x.token ≠ y.token) :=
      pairwise_map.mp ((hperm.map Row.token).nodup_iff.mpr hunique)
    exact (hle.and hne).imp fun h => decide_eq_true h
  intro hevicted
  have htake : Eviction.evicted maxPerUser (orderTokens rows) =
      (Eviction.evicted maxPerUser (rows.insertionSort Row.le)).map Row.token := by
    simp [Eviction.evicted, orderTokens, map_take]
  rw [htake] at hevicted
  obtain ⟨x, hx, htoken⟩ := List.mem_map.mp hevicted
  have hxrows : x ∈ rows := hperm.mem_iff.mp (mem_of_mem_take hx)
  obtain rfl := inj_on_of_nodup_map hunique hxrows hmem htoken
  have := (Eviction.mem_evicted_iff laterThan_asymm hsorted (hperm.mem_iff.mpr hmem)).mp hx
  rw [Eviction.after, hperm.countP_eq] at this
  omega

/-- Evicting what is over the limit leaves no more than the limit. -/
theorem length_evict_le (rows : List Row) :
    (rows.filter (fun x => x.token ∉ Eviction.evicted maxPerUser (orderTokens rows))).length ≤
      maxPerUser := by
  have hlength : (rows.filter (fun x => decide
      (x.token ∉ Eviction.evicted maxPerUser (orderTokens rows)))).length =
      ((orderTokens rows).filter (fun k => decide
        (k ∉ Eviction.evicted maxPerUser (orderTokens rows)))).length := by
    rw [((orderTokens_perm rows).filter _).length_eq, List.filter_map, length_map]
    rfl
  rw [hlength]
  exact Eviction.length_filter_evicted_le _ _

/-! ## The invariant -/

/-- The call has seen all sessions that are there. -/
def SawAll (sessions : List Row) : Call → Prop
  | .waiting _ snapshot => snapshot = sessions
  | .selected row tokens => tokens = orderTokens (sessions ++ [row])
  | _ => True

/-- No two calls have the same token. -/
def Apart (calls : List Call) : Prop :=
  ∀ (i j : ℕ) (c d : Call), i ≠ j → calls[i]? = some c → calls[j]? = some d →
    ∀ q ∈ c.row?, ∀ r ∈ d.row?, q.token ≠ r.token

/-- What the steps keep whose condition is met. -/
structure Inv (maxPerUser : ℕ) (s : State) : Prop where
  /-- nobody else has the token of a call -/
  fresh : ∀ c ∈ s.calls, ∀ q ∈ c.row?, ∀ x ∈ s.sessions, x.token ≠ q.token
  apart : Apart s.calls
  unique : UniqueKeys Row.token s.sessions
  seen : ∀ row snapshot, .waiting row snapshot ∈ s.calls →
    UniqueKeys Row.token snapshot ∧ ∀ x ∈ snapshot, x.token ≠ row.token
  own : ∀ row tokens, .selected row tokens ∈ s.calls →
    row.token ∉ Eviction.evicted maxPerUser tokens
  idle : s.committed = true → selecting s.calls = 0 → s.sessions.length ≤ maxPerUser
  room : selecting s.calls ≠ 0 → s.sessions.length + selecting s.calls ≤ maxPerUser ∨
    selecting s.calls = 1 ∧ ∀ c ∈ s.calls, SawAll s.sessions c

theorem inv_start {sessions : List Row} (h : UniqueKeys Row.token sessions) :
    Inv maxPerUser (start sessions) where
  fresh := fun _ h => nomatch h
  apart := fun i _ _ _ _ h => by simp [start] at h
  unique := h
  seen := fun _ _ h => nomatch h
  own := fun _ _ h => nomatch h
  idle := fun h => nomatch h
  room := fun h => absurd rfl h

/-! ## The steps -/

theorem step_run (h : step maxPerUser s (.run i) = some t) :
    ∃ call sessions next, s.calls[i]? = some call ∧
      runCall maxPerUser s.sessions (s.calls.eraseIdx i) call = some (sessions, next) ∧
      t = {
        sessions := sessions
        calls := s.calls.set i next
        committed := s.committed || decide (next = .finished) } := by
  simp only [step, bind_eq_bind, bind_eq_some_iff] at h
  obtain ⟨call, hcall, ⟨sessions, next⟩, hrun, ht⟩ := h
  exact ⟨call, sessions, next, hcall, hrun, (some.inj ht).symm⟩

theorem step_call (h : step maxPerUser s (.call row) = some t) :
    (∀ x ∈ s.sessions, x.token ≠ row.token) ∧
      (∀ c ∈ s.calls, ∀ q ∈ c.row?, q.token ≠ row.token) ∧
      t = { s with calls := s.calls ++ [.arrived row] } := by
  simp only [step, ite_none_right_eq_some] at h
  exact ⟨h.1.1, h.1.2, (some.inj h.2).symm⟩

theorem selecting_set {c d : Call} (hc : s.calls[i]? = some c) :
    selecting (s.calls.set i d) + (if c.selecting then 1 else 0) =
      selecting s.calls + (if d.selecting then 1 else 0) :=
  countP_set _ hc d

/-- A call that arrives keeps the invariant. -/
theorem Inv.call (hs : Inv maxPerUser s) (h : step maxPerUser s (.call row) = some t) :
    Inv maxPerUser t := by
  obtain ⟨hsessions, hcalls, rfl⟩ := step_call h
  have hselecting : selecting (s.calls ++ [.arrived row]) = selecting s.calls := by
    simp [selecting, Call.selecting]
  refine ⟨?_, ?_, hs.unique, ?_, ?_, ?_, ?_⟩
  · apply forall_mem_append_singleton hs.fresh
    rintro q ⟨⟩
    exact hsessions
  · intro i j c d hij hc hd q hq r hr
    rcases getElem?_append_singleton_cases hc with hc | ⟨hi, rfl⟩ <;>
      rcases getElem?_append_singleton_cases hd with hd | ⟨hj, rfl⟩
    · exact hs.apart i j c d hij hc hd q hq r hr
    · cases hr
      exact hcalls c (mem_of_getElem? hc) q hq
    · cases hq
      exact (hcalls d (mem_of_getElem? hd) r hr).symm
    · exact absurd (hi.trans hj.symm) hij
  · intro row' snapshot hmem
    exact hs.seen row' snapshot (by simpa using hmem)
  · intro row' tokens hmem
    exact hs.own row' tokens (by simpa using hmem)
  · intro hcommitted hnone
    exact hs.idle hcommitted (hselecting ▸ hnone)
  · intro hsome
    rw [hselecting] at hsome ⊢
    exact (hs.room hsome).imp_right fun h =>
      ⟨h.1, forall_mem_append_singleton h.2 trivial⟩

theorem Apart.set {c d : Call} (h : Apart s.calls) (hc : s.calls[i]? = some c)
    (hrow : ∀ q ∈ d.row?, q ∈ c.row?) : Apart (s.calls.set i d) := by
  intro j k e f hjk he hf q hq r hr
  rcases getElem?_set_cases he with ⟨hj, rfl⟩ | ⟨-, he'⟩ <;>
    rcases getElem?_set_cases hf with ⟨hk, rfl⟩ | ⟨-, hf'⟩
  · exact absurd (hj.trans hk.symm) hjk
  · exact h j k c f hjk (hj ▸ hc) hf' q (hrow q hq) r hr
  · exact h j k e c hjk he' (hk ▸ hc) q hq r (hrow r hr)
  · exact h j k e f hjk he' hf' q hq r hr

theorem sawAll_of_not_selecting {sessions : List Row} {c : Call} (h : c.selecting = false) :
    SawAll sessions c := by
  cases c <;> trivial

/-- A call that inserts its row keeps the invariant. -/
theorem Inv.insert (hs : Inv maxPerUser s) (hc : s.calls[i]? = some (.arrived row)) :
    Inv maxPerUser { s with calls := s.calls.set i (.inserted row) } := by
  have hselecting := selecting_set hc (d := .inserted row)
  simp only [Call.selecting, Bool.false_eq_true, if_false, Nat.add_zero] at hselecting
  refine ⟨?_, hs.apart.set hc (fun _ h => h), hs.unique, ?_, ?_, ?_, ?_⟩
  · exact forall_mem_set hs.fresh (hs.fresh (.arrived row) (mem_of_getElem? hc))
  · intro row' snapshot hmem
    rcases mem_or_eq_of_mem_set hmem with hmem | heq
    · exact hs.seen row' snapshot hmem
    · cases heq
  · intro row' tokens hmem
    rcases mem_or_eq_of_mem_set hmem with hmem | heq
    · exact hs.own row' tokens hmem
    · cases heq
  · intro hcommitted hnone
    exact hs.idle hcommitted (hselecting ▸ hnone)
  · simp only [hselecting]
    intro hsome
    exact (hs.room hsome).imp_right fun h => ⟨h.1, forall_mem_set h.2 trivial⟩

/-- A call that takes its snapshot when it may keeps the invariant. -/
theorem Inv.snapshot (hs : Inv maxPerUser s) (hc : s.calls[i]? = some (.inserted row))
    (hspaced : InTime maxPerUser s (.inserted row)) :
    Inv maxPerUser { s with calls := s.calls.set i (.waiting row s.sessions) } := by
  have hselecting := selecting_set hc (d := .waiting row s.sessions)
  simp only [Call.selecting, Bool.false_eq_true, if_false, if_true, Nat.add_zero] at hselecting
  have hrow := hs.fresh (.inserted row) (mem_of_getElem? hc)
  refine ⟨?_, hs.apart.set hc (fun _ h => h), hs.unique, ?_, ?_, ?_, ?_⟩
  · exact forall_mem_set hs.fresh hrow
  · intro row' snapshot hmem
    rcases mem_or_eq_of_mem_set hmem with hmem | heq
    · exact hs.seen row' snapshot hmem
    · cases heq
      exact ⟨hs.unique, hrow row rfl⟩
  · intro row' tokens hmem
    rcases mem_or_eq_of_mem_set hmem with hmem | heq
    · exact hs.own row' tokens hmem
    · cases heq
  · intro _ hnone
    rw [hselecting] at hnone
    cases hnone
  · intro _
    simp only [hselecting]
    rcases hspaced with hnone | hroom
    · refine .inr ⟨by omega, forall_mem_set (fun c hmem => ?_) rfl⟩
      exact sawAll_of_not_selecting (by simpa using countP_eq_zero.mp hnone c hmem)
    · exact .inl (by omega)

/-- A call that gets its locks in time keeps the invariant. -/
theorem Inv.select {snapshot : List Row} (hs : Inv maxPerUser s)
    (hc : s.calls[i]? = some (.waiting row snapshot))
    (hspaced : InTime maxPerUser s (.waiting row snapshot)) :
    Inv maxPerUser { s with
      calls := s.calls.set i (.selected row (orderTokens (visible s.sessions row snapshot))) } := by
  have hmem := mem_of_getElem? hc
  have hselecting :=
    selecting_set hc (d := .selected row (orderTokens (visible s.sessions row snapshot)))
  simp only [Call.selecting, if_true, Nat.add_right_cancel_iff] at hselecting
  have hunique : (visible s.sessions row snapshot).map Row.token |>.Nodup := by
    obtain ⟨hsnapshot, hne⟩ := hs.seen row snapshot hmem
    exact (hsnapshot.filter _).append_singleton fun x hx => hne x (mem_of_mem_filter hx)
  refine ⟨?_, hs.apart.set hc (fun _ h => h), hs.unique, ?_, ?_, ?_, ?_⟩
  · exact forall_mem_set hs.fresh (hs.fresh (.waiting row snapshot) hmem)
  · intro row' snapshot' hwaiting
    rcases mem_or_eq_of_mem_set hwaiting with hwaiting | heq
    · exact hs.seen row' snapshot' hwaiting
    · cases heq
  · intro row' tokens hselected
    rcases mem_or_eq_of_mem_set hselected with hselected | heq
    · exact hs.own row' tokens hselected
    · cases heq
      exact not_mem_evicted (mem_append_right _ (mem_singleton_self row)) hunique hspaced
  · intro hcommitted hnone
    exact hs.idle hcommitted (hselecting ▸ hnone)
  · simp only [hselecting]
    intro hsome
    refine (hs.room hsome).imp_right fun h => ⟨h.1, forall_mem_set h.2 ?_⟩
    -- it is alone, so all that it has seen is still there
    have hsaw : snapshot = s.sessions := h.2 _ hmem
    show _ = _
    rw [hsaw, visible, filter_eq_self.mpr fun x hx => decide_eq_true hx]

/-- A call that is committed keeps the invariant. -/
theorem Inv.commit {tokens : List ℕ} (hs : Inv maxPerUser s)
    (hc : s.calls[i]? = some (.selected row tokens)) :
    Inv maxPerUser {
      sessions := (s.sessions ++ [row]).filter
        (fun x => x.token ∉ Eviction.evicted maxPerUser tokens)
      calls := s.calls.set i .finished, committed := true } := by
  have hmem := mem_of_getElem? hc
  have hselecting := selecting_set hc (d := .finished)
  simp only [Call.selecting, if_true, Bool.false_eq_true, if_false, Nat.add_zero] at hselecting
  have hlength : ((s.sessions ++ [row]).filter
      (fun x => x.token ∉ Eviction.evicted maxPerUser tokens)).length ≤ s.sessions.length + 1 := by
    refine (length_filter_le _ _).trans ?_
    rw [length_append, length_singleton]
  refine ⟨?_, hs.apart.set hc nofun, ?_, ?_, ?_, ?_, ?_⟩
  · intro c hcmem q hq x hx
    obtain ⟨j, hj⟩ := mem_iff_getElem?.mp hcmem
    rcases getElem?_set_cases hj with ⟨-, rfl⟩ | ⟨hji, hj'⟩
    · cases hq
    · rcases mem_append.mp (mem_of_mem_filter hx) with hx | hx
      · exact hs.fresh c (mem_of_getElem? hj') q hq x hx
      · rw [mem_singleton.mp hx]
        exact hs.apart i j _ c (Ne.symm hji) hc hj' row rfl q hq
  · exact (hs.unique.append_singleton (hs.fresh _ hmem row rfl)).filter _
  · intro row' snapshot hwaiting
    rcases mem_or_eq_of_mem_set hwaiting with hwaiting | heq
    · exact hs.seen row' snapshot hwaiting
    · cases heq
  · intro row' tokens' hselected
    rcases mem_or_eq_of_mem_set hselected with hselected | heq
    · exact hs.own row' tokens' hselected
    · cases heq
  · intro _ hnone
    have hone : selecting s.calls = 1 := by
      rw [← hselecting]
      exact congrArg (· + 1) hnone
    rcases hs.room (by omega) with hroom | ⟨-, hsaw⟩
    · exact hlength.trans (hone ▸ hroom)
    · have hall : tokens = orderTokens (s.sessions ++ [row]) := hsaw _ hmem
      rw [hall]
      exact length_evict_le _
  · intro hsome
    have hsome : selecting (s.calls.set i .finished) ≠ 0 := hsome
    rcases hs.room (by omega) with hroom | ⟨hone, -⟩
    · have hle := Nat.add_le_add_right hlength (selecting (s.calls.set i .finished))
      exact .inl (hle.trans (by omega))
    · omega

/-- **Every action that meets the condition keeps the invariant.** -/
theorem inv_step {a : Action} (hs : Inv maxPerUser s) (ha : Spaced maxPerUser s a)
    (h : step maxPerUser s a = some t) : Inv maxPerUser t := by
  cases a with
  | call row => exact hs.call h
  | run i =>
    obtain ⟨call, sessions, next, hc, hrun, rfl⟩ := step_run h
    have ha := ha call hc
    cases call with
    | arrived row =>
      cases hrun
      simpa using hs.insert hc
    | inserted row =>
      cases hrun
      simpa using hs.snapshot hc ha
    | waiting row snapshot =>
      simp only [runCall, ite_none_left_eq_some] at hrun
      obtain ⟨-, hrun⟩ := hrun
      cases hrun
      simpa using hs.select hc ha
    | selected row tokens =>
      cases hrun
      simpa using hs.commit hc
    | finished => cases hrun

/-- Such an action keeps the promise of the limit. -/
theorem kept_step {a : Action} (hs : Inv maxPerUser s) (ha : Spaced maxPerUser s a)
    (h : step maxPerUser s a = some t) : Kept maxPerUser s a t where
  cap := by
    intro hcommitted hidle
    refine (inv_step hs ha h).idle hcommitted ?_
    rw [selecting, countP_eq_zero]
    intro c hc
    rw [hidle c hc]
    exact Bool.false_ne_true
  own := by
    rintro i rfl row tokens hc
    obtain ⟨call, sessions, next, hc', hrun, rfl⟩ := step_run h
    obtain rfl := some.inj (hc.symm.trans hc')
    cases hrun
    exact mem_filter.mpr ⟨mem_append_right _ (mem_singleton_self _),
      decide_eq_true (hs.own row tokens (mem_of_getElem? hc))⟩

/-! ## The result -/

/-- **The limit is kept in every run whose snapshots are spaced and whose sessions are in time.** -/
theorem cap_kept (maxPerUser : ℕ) (sessions : List Row)
    (hsessions : Keyed.UniqueKeys Row.token sessions) (as : List Action)
    (h : Machine.Meets (step maxPerUser) (Spaced maxPerUser) (start sessions) as) :
    Machine.Each (step maxPerUser) (Kept maxPerUser) (start sessions) as :=
  Machine.each_of_meets (I := Inv maxPerUser) (fun _ _ _ => inv_step) (fun _ _ _ => kept_step)
    (inv_start hsessions) h

/-- Three sessions under a limit of two, and two logins one after the other. -/
theorem two_logins_kept :
    Machine.Each (step 2) (Kept 2) (start [⟨7, 1⟩, ⟨3, 2⟩, ⟨5, 2⟩])
      ([.call ⟨9, 10⟩, .call ⟨4, 11⟩] ++ List.replicate 4 (.run 0) ++ List.replicate 4 (.run 1)) :=
  cap_kept 2 _ (by decide) _ (by decide)

/-! ## Logins at once -/

/-- Six first logins that are inserted and read before any of them is committed. -/
def sixAtOnce : List Action :=
  (List.range 6).map (fun i => .call ⟨i, 0⟩) ++
    (List.range 6).map .run ++ (List.range 6).flatMap (fun i => [.run i, .run i]) ++
      (List.range 6).map .run

/-- All six stay, with a limit of five. -/
theorem six_sessions_stay :
    ¬ ∀ sessions as, Keyed.UniqueKeys Row.token sessions →
      Machine.Each (step 5) (Kept 5) (start sessions) as := by
  intro h
  have hrun : Machine.run (step 5) (start []) sixAtOnce = some _ := rfl
  have halways : Machine.Always (step 5) (fun t => t.committed = true →
      (∀ c ∈ t.calls, c = .finished) → t.sessions.length ≤ 5) (start []) sixAtOnce :=
    Machine.always_iff_each.mpr
      ⟨nofun, (h [] sixAtOnce List.nodup_nil).mono fun _ _ _ hkept => hkept.cap⟩
  have hle := halways.last hrun rfl (by decide)
  revert hle
  decide

end FestivalPlanner.Auth.SessionCap
