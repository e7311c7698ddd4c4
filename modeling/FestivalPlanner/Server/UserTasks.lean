import FestivalPlanner.Lib.InFlight
import FestivalPlanner.Lib.Keyed
import FestivalPlanner.Lib.Machine
import Mathlib.Algebra.GroupWithZero.Nat
import Mathlib.Data.Nat.Find

/-!
# The task queue of a user

`runUserTask` hangs every task on the clean-up promise of the user's call before it, and keeps the
last one in a map until it has settled.  A call makes four promises; each settles in a microtask of
its own, after the one that it is derived from, and the microtasks of different calls may come in
any order.

* `Stage` — how far the promises of a call have settled;
* `step` — a call, a task that settles, and the next microtask of a call;
* `Sound` — a call moves only after the earlier calls of its user are cleaned up, and the map holds
  the last call of a user until then;
* `Exclusive` — one task of a user at a time, in order, each once, with its own outcome, no leak;
* `user_tasks` — so it is in every run.
-/

namespace FestivalPlanner.UserTasks

open List Option Keyed InFlight

variable {V E : Type*}

/-! ## Calls and their promises -/

/-- What a promise settles with. -/
inductive Outcome (V E : Type*)
  | fulfilled (value : V)
  | rejected (error : E)

/-- How far a call has come: each stage names what has settled last. -/
inductive Stage (V E : Type*)
  /-- `previous.catch(() => {})` is pending. -/
  | waiting
  /-- It has settled; the task is called next. -/
  | caught
  /-- The task has been called and its own promise is pending. -/
  | running
  /-- The task's own promise has settled. -/
  | returned (o : Outcome V E)
  /-- `next`, which the caller holds, has settled. -/
  | next (o : Outcome V E)
  /-- `next.catch(() => {})` has settled. -/
  | chain (o : Outcome V E)
  /-- The clean-up has run. -/
  | cleanup (o : Outcome V E)

namespace Stage

@[grind =] def rank : Stage V E → ℕ
  | waiting => 0
  | caught => 1
  | running => 2
  | returned _ => 3
  | next _ => 4
  | chain _ => 5
  | cleanup _ => 6

/-- The outcome of the task's own promise. -/
def task : Stage V E → Option (Outcome V E)
  | returned o | next o | chain o | cleanup o => some o
  | _ => none

/-- The outcome of the promise that `runUserTask` returned. -/
def result : Stage V E → Option (Outcome V E)
  | next o | chain o | cleanup o => some o
  | _ => none

end Stage

structure Call (V E : Type*) where
  userId : String
  /-- The call whose clean-up promise was in the map, if there was one. -/
  previous : Option ℕ
  stage : Stage V E

structure State (V E : Type*) where
  calls : List (Call V E)
  /-- `state.userTaskQueues`: the call whose clean-up promise is kept for a user. -/
  userTaskQueues : List (String × ℕ)
  /-- The calls whose tasks have been started, in order. -/
  starts : List ℕ
  /-- What the tasks' own promises have settled with. -/
  outcomes : List (ℕ × Outcome V E)

def State.initial (V E : Type*) : State V E := ⟨[], [], [], []⟩

inductive Action (V E : Type*)
  | runUserTask (userId : String)
  /-- The promise of a running task settles. -/
  | settle (call : ℕ) (o : Outcome V E)
  /-- The next microtask of a call. -/
  | react (call : ℕ)

namespace State

def queueOf (s : State V E) (userId : String) : Option ℕ :=
  (lookup Prod.fst userId s.userTaskQueues).map Prod.snd

/-- The clean-up promise of the call, or `Promise.resolve()`, has settled. -/
def hasSettled (s : State V E) : Option ℕ → Bool
  | none => true
  | some k =>
      match s.calls[k]? with
      | some ⟨_, _, .cleanup _⟩ => true
      | _ => false

@[grind =] def advance (s : State V E) (j : ℕ) (call : Call V E) (stage : Stage V E) : State V E :=
  { s with calls := s.calls.set j { call with stage := stage } }

/-- The callback of the clean-up. -/
def cleanUp (s : State V E) (userId : String) (j : ℕ) : State V E :=
  if s.queueOf userId = some j then
    { s with userTaskQueues := erase Prod.fst userId s.userTaskQueues }
  else s

@[grind =] def runUserTask (s : State V E) (userId : String) : State V E :=
  { s with
    calls := s.calls ++ [⟨userId, s.queueOf userId, .waiting⟩]
    userTaskQueues := upsert Prod.fst (userId, s.calls.length) s.userTaskQueues }

def react (s : State V E) (j : ℕ) (call : Call V E) : Option (State V E) :=
  match call.stage with
  | .waiting => if s.hasSettled call.previous then some (s.advance j call .caught) else none
  | .caught => some { s.advance j call .running with starts := s.starts ++ [j] }
  | .running => none
  | .returned o => some (s.advance j call (.next o))
  | .next o => some (s.advance j call (.chain o))
  | .chain o => some ((s.advance j call (.cleanup o)).cleanUp call.userId j)
  | .cleanup _ => none

end State

def step (s : State V E) : Action V E → Option (State V E)
  | .runUserTask userId => some (s.runUserTask userId)
  | .settle j o =>
      match s.calls[j]? with
      | some ⟨userId, previous, .running⟩ =>
          some { s.advance j ⟨userId, previous, .running⟩ (.returned o) with
            outcomes := s.outcomes ++ [(j, o)] }
      | _ => none
  | .react j =>
      match s.calls[j]? with
      | none => none
      | some call => s.react j call

/-! ## One task of a user at a time -/

namespace State

@[grind =] def userOf (s : State V E) (j : ℕ) : Option String := s.calls[j]?.map Call.userId

@[grind =] def stageOf (s : State V E) (j : ℕ) : Option (Stage V E) := s.calls[j]?.map Call.stage

/-- The user's tasks and their microtasks have all run: none of the tasks is running, and no
microtask is left. -/
def Quiet (s : State V E) (userId : String) : Prop :=
  ∀ j, s.userOf j = some userId → s.stageOf j ≠ some .running ∧ step s (.react j) = none

/-- The microtasks and outcomes that are still to come. -/
def work (s : State V E) : ℕ := (s.calls.map fun call => 6 - call.stage.rank).sum

end State

def Action.IsCall : Action V E → Prop
  | .runUserTask _ => True
  | _ => False

structure Exclusive (s : State V E) : Prop where
  exclusive : ∀ i j, s.stageOf i = some .running → s.stageOf j = some .running →
    s.userOf i = s.userOf j → i = j
  ordered : s.starts.Pairwise fun i j => s.userOf i = s.userOf j → i < j
  noneSkipped : ∀ i j, i < j → s.userOf i = s.userOf j → j ∈ s.starts → i ∈ s.starts
  once : s.starts.Nodup
  oneOutcome : UniqueKeys Prod.fst s.outcomes
  ownOutcome : ∀ j o, s.stageOf j >>= Stage.result = some o → (j, o) ∈ s.outcomes
  quiet : ∀ userId, s.Quiet userId →
    (∀ j, s.userOf j = some userId → j ∈ s.starts ∧ ∃ o, s.stageOf j >>= Stage.result = some o) ∧
    s.queueOf userId = none
  terminates : ∀ a t, step s a = some t → ¬ a.IsCall → t.work < s.work

/-! ## The calls by their numbers -/

namespace State

@[grind =] def rankOf (s : State V E) (j : ℕ) : ℕ := (s.calls[j]?).elim 0 fun call => call.stage.rank

@[grind =] def previousOf (s : State V E) (j : ℕ) : Option ℕ := s.calls[j]?.bind Call.previous

@[grind =] def taskOf (s : State V E) (j : ℕ) : Option (Outcome V E) := s.stageOf j >>= Stage.task

section
variable {s : State V E} {i j : ℕ} {call : Call V E} {stage : Stage V E}

theorem userOf_eq (h : s.calls[j]? = some call) : s.userOf j = some call.userId := by
  simp [userOf, h]

theorem rankOf_eq (h : s.calls[j]? = some call) : s.rankOf j = call.stage.rank := by
  simp [rankOf, h]

theorem exists_of_rankOf (h : 0 < s.rankOf j) : ∃ call, s.calls[j]? = some call := by
  unfold rankOf at h
  cases hcall : s.calls[j]? with
  | none => simp [hcall] at h
  | some call => exact ⟨call, rfl⟩

theorem exists_of_userOf {userId : String} (h : s.userOf j = some userId) :
    ∃ call, s.calls[j]? = some call ∧ call.userId = userId := by
  simpa [userOf] using h

theorem userOf_advance (h : s.calls[j]? = some call) :
    (s.advance j call stage).userOf i = s.userOf i := by
  obtain ⟨hlt, rfl⟩ := List.getElem?_eq_some_iff.mp h
  by_cases hij : j = i
  · subst hij
    simp [userOf, advance, hlt]
  · simp [userOf, advance, getElem?_set_ne hij]

theorem previousOf_advance (h : s.calls[j]? = some call) :
    (s.advance j call stage).previousOf i = s.previousOf i := by
  obtain ⟨hlt, rfl⟩ := List.getElem?_eq_some_iff.mp h
  by_cases hij : j = i
  · subst hij
    simp [previousOf, advance, hlt]
  · simp [previousOf, advance, getElem?_set_ne hij]

theorem stageOf_advance (h : s.calls[j]? = some call) :
    (s.advance j call stage).stageOf i = if i = j then some stage else s.stageOf i := by
  obtain ⟨hlt, -⟩ := List.getElem?_eq_some_iff.mp h
  by_cases hij : j = i
  · subst hij
    simp [stageOf, advance, hlt]
  · simp [stageOf, advance, getElem?_set_ne hij, Ne.symm hij]

theorem rankOf_advance (h : s.calls[j]? = some call) :
    (s.advance j call stage).rankOf i = if i = j then stage.rank else s.rankOf i := by
  obtain ⟨hlt, -⟩ := List.getElem?_eq_some_iff.mp h
  by_cases hij : j = i
  · subst hij
    simp [rankOf, advance, hlt]
  · simp [rankOf, advance, getElem?_set_ne hij, Ne.symm hij]

theorem work_advance (h : s.calls[j]? = some call) (hrank : call.stage.rank < stage.rank)
    (hle : stage.rank ≤ 6) : (s.advance j call stage).work < s.work := by
  have hset := set_eq_take_cons_drop h { call with stage := stage }
  have hcalls := eq_take_cons_drop h
  have hnew : (s.advance j call stage).work =
      ((s.calls.take j).map fun c => 6 - c.stage.rank).sum + ((6 - stage.rank) +
        ((s.calls.drop (j + 1)).map fun c => 6 - c.stage.rank).sum) := by
    rw [work, advance, hset]
    simp
  have hold : s.work = ((s.calls.take j).map fun c => 6 - c.stage.rank).sum +
      ((6 - call.stage.rank) + ((s.calls.drop (j + 1)).map fun c => 6 - c.stage.rank).sum) := by
    conv_lhs => rw [work, hcalls]
    simp
  omega

theorem hasSettled_iff {previous : Option ℕ} :
    s.hasSettled previous = true ↔ ∀ k, previous = some k → s.rankOf k = 6 := by
  cases previous with
  | none => simp [hasSettled]
  | some k =>
    cases hcall : s.calls[k]? with
    | none => simp [hasSettled, rankOf, hcall]
    | some call =>
      obtain ⟨userId, previous, stage⟩ := call
      cases stage <;> simp [hasSettled, rankOf, hcall, Stage.rank]

end

end State

/-! ## What a step does -/

variable {s t : State V E} {i j : ℕ}

/-- A microtask or an outcome takes one call to its next stage; what else changes depends on the
stage that it reaches. -/
structure Moves (s : State V E) (j : ℕ) (call : Call V E) (stage : Stage V E) (t : State V E) :
    Prop where
  found : s.calls[j]? = some call
  rank : stage.rank = call.stage.rank + 1
  calls : t.calls = (s.advance j call stage).calls
  caught : stage.rank = 1 → ∀ k, call.previous = some k → s.rankOf k = 6
  starts : t.starts = if stage.rank = 2 then s.starts ++ [j] else s.starts
  outcomes : (stage.task = call.stage.task ∧ t.outcomes = s.outcomes) ∨
    ∃ o, call.stage.task = none ∧ stage.task = some o ∧ t.outcomes = s.outcomes ++ [(j, o)]
  queues : t.userTaskQueues = if stage.rank = 6 ∧ s.queueOf call.userId = some j then
    erase Prod.fst call.userId s.userTaskQueues else s.userTaskQueues

theorem step_cases {a : Action V E} (h : step s a = some t) :
    (∃ userId, a = .runUserTask userId ∧ t = s.runUserTask userId) ∨
      ¬ a.IsCall ∧ ∃ j call stage, Moves s j call stage t := by
  cases a with
  | runUserTask userId => exact .inl ⟨userId, rfl, (some.inj h).symm⟩
  | settle j o =>
    simp only [step] at h
    split at h
    · rename_i userId previous hcall
      cases h
      refine .inr ⟨not_false, j, _, .returned o, hcall, rfl, rfl, nofun, rfl,
        .inr ⟨o, rfl, rfl, rfl⟩, rfl⟩
    · cases h
  | react j =>
    simp only [step] at h
    split at h
    · cases h
    · rename_i call hcall
      obtain ⟨userId, previous, stage⟩ := call
      refine .inr ⟨not_false, j, ⟨userId, previous, stage⟩, ?_⟩
      cases stage with
      | waiting =>
        simp only [State.react] at h
        split_ifs at h with hsettled
        cases h
        exact ⟨.caught, hcall, rfl, rfl, fun _ => State.hasSettled_iff.mp hsettled, rfl,
          .inl ⟨rfl, rfl⟩, rfl⟩
      | caught =>
        cases h
        exact ⟨.running, hcall, rfl, rfl, nofun, rfl, .inl ⟨rfl, rfl⟩, rfl⟩
      | running => cases h
      | returned o =>
        cases h
        exact ⟨.next o, hcall, rfl, rfl, nofun, rfl, .inl ⟨rfl, rfl⟩, rfl⟩
      | next o =>
        cases h
        exact ⟨.chain o, hcall, rfl, rfl, nofun, rfl, .inl ⟨rfl, rfl⟩, rfl⟩
      | chain o =>
        cases h
        refine ⟨.cleanup o, hcall, rfl, ?_, nofun, ?_, .inl ⟨rfl, ?_⟩, ?_⟩ <;>
          unfold State.cleanUp <;> split_ifs with hqueue <;> simp_all [State.advance, State.queueOf,
            Stage.rank]
      | cleanup o => cases h

/-! ## What every step keeps -/

theorem Stage.rank_le (stage : Stage V E) : stage.rank ≤ 6 := by
  cases stage <;> simp [Stage.rank]

structure Sound (s : State V E) : Prop where
  /-- A call waits for an earlier call of its user, -/
  previous : ∀ j k, s.previousOf j = some k → k < j ∧ s.userOf k = s.userOf j
  /-- the last one before it, -/
  latest : ∀ i j k, i < j → s.userOf i = s.userOf j → s.previousOf j = some k → i ≤ k
  /-- or for none when they are all cleaned up. -/
  alone : ∀ i j, i < j → j < s.calls.length → s.userOf i = s.userOf j → s.previousOf j = none →
    s.rankOf i = 6
  order : ∀ i j, i < j → s.userOf i = s.userOf j → 0 < s.rankOf j → s.rankOf i = 6
  unique : UniqueKeys Prod.fst s.userTaskQueues
  /-- The map holds the last call of a user until it is cleaned up. -/
  entry : ∀ userId j, (userId, j) ∈ s.userTaskQueues ↔
    s.userOf j = some userId ∧ s.rankOf j < 6 ∧ ∀ k, j < k → s.userOf k ≠ some userId
  starts : ∀ j, j ∈ s.starts ↔ 2 ≤ s.rankOf j
  ordered : s.starts.Pairwise fun i j => s.userOf i = s.userOf j → i < j
  outcomes : ∀ j o, (j, o) ∈ s.outcomes ↔ s.taskOf j = some o
  oneOutcome : UniqueKeys Prod.fst s.outcomes

theorem Sound.queueOf_eq_some (h : Sound s) {userId : String} :
    s.queueOf userId = some j ↔ (userId, j) ∈ s.userTaskQueues :=
  h.unique.map_snd_lookup

theorem Sound.initial : Sound (State.initial V E) where
  previous j k hk := by simp [State.previousOf, State.initial] at hk
  latest i j k _ _ hk := by simp [State.previousOf, State.initial] at hk
  alone i j _ hj := by simp [State.initial] at hj
  order i j _ _ hj := by simp [State.rankOf, State.initial] at hj
  unique := nodup_nil
  entry userId j := by simp [State.initial, State.userOf]
  starts j := by simp [State.initial, State.rankOf]
  ordered := .nil
  outcomes j o := by simp [State.initial, State.taskOf, State.stageOf]
  oneOutcome := nodup_nil

section
variable {call : Call V E} {stage : Stage V E}

theorem Moves.userOf (m : Moves s j call stage t) (i : ℕ) : t.userOf i = s.userOf i := by
  rw [State.userOf, m.calls]
  exact State.userOf_advance m.found

theorem Moves.previousOf (m : Moves s j call stage t) (i : ℕ) :
    t.previousOf i = s.previousOf i := by
  rw [State.previousOf, m.calls]
  exact State.previousOf_advance m.found

theorem Moves.stageOf (m : Moves s j call stage t) (i : ℕ) :
    t.stageOf i = if i = j then some stage else s.stageOf i := by
  rw [State.stageOf, m.calls]
  exact State.stageOf_advance m.found

theorem Moves.rankOf (m : Moves s j call stage t) (i : ℕ) :
    t.rankOf i = if i = j then stage.rank else s.rankOf i := by
  rw [State.rankOf, m.calls]
  exact State.rankOf_advance m.found

theorem Moves.work (m : Moves s j call stage t) : t.work < s.work := by
  rw [State.work, m.calls]
  exact State.work_advance m.found (by rw [m.rank]; omega) stage.rank_le

/-- The earlier calls of the user are cleaned up before a call moves. -/
theorem Sound.earlier_cleaned (h : Sound s) (m : Moves s j call stage t) (hij : i < j)
    (huser : s.userOf i = s.userOf j) : s.rankOf i = 6 := by
  have hrank := State.rankOf_eq m.found
  have hstage := m.rank
  by_cases hwaiting : call.stage.rank = 0
  · have hprevious : s.previousOf j = call.previous := by simp [State.previousOf, m.found]
    have hsettled := m.caught (by omega)
    cases hcall : call.previous with
    | none =>
      obtain ⟨hlt, -⟩ := List.getElem?_eq_some_iff.mp m.found
      exact h.alone i j hij hlt huser (hprevious.trans hcall)
    | some k =>
      have hk := hsettled k hcall
      rw [hcall] at hprevious
      have hle := h.latest i j k hij huser hprevious
      rcases hle.eq_or_lt with rfl | hlt
      · exact hk
      · have hsame := huser.trans (h.previous j k hprevious).2.symm
        exact h.order i k hlt hsame (by omega)
  · exact h.order i j hij huser (by omega)

/-- What is cleaned up does not move any more. -/
theorem Moves.cleaned (m : Moves s j call stage t) (hi : s.rankOf i = 6) : t.rankOf i = 6 := by
  rw [m.rankOf]
  split_ifs with hij
  · subst hij
    have hle := stage.rank_le
    have hrank := m.rank
    have hold := State.rankOf_eq m.found
    omega
  · exact hi

theorem Sound.moves_entry (h : Sound s) (m : Moves s j call stage t) (userId : String) (i : ℕ) :
    (userId, i) ∈ t.userTaskQueues ↔
      t.userOf i = some userId ∧ t.rankOf i < 6 ∧ ∀ k, i < k → t.userOf k ≠ some userId := by
  have hle := stage.rank_le
  have hrank := m.rank
  have hold := State.rankOf_eq m.found
  have huser := State.userOf_eq m.found
  simp only [m.userOf, m.rankOf, m.queues]
  by_cases hlast : stage.rank = 6
  · by_cases hqueue : s.queueOf call.userId = some j
    · -- the entry of the user is that of the call, and goes with it
      have hmem := h.queueOf_eq_some.mp hqueue
      obtain ⟨-, -, hlater⟩ := (h.entry _ _).mp hmem
      rw [if_pos ⟨hlast, hqueue⟩, mem_erase, h.entry]
      constructor
      · rintro ⟨⟨hi, hlt, hnone⟩, hne⟩
        refine ⟨hi, ?_, hnone⟩
        rw [if_neg]
        · exact hlt
        · rintro rfl
          exact hne (some.inj (hi.symm.trans huser))
      · rintro ⟨hi, hlt, hnone⟩
        have hij : i ≠ j := by
          rintro rfl
          rw [if_pos rfl] at hlt
          omega
        rw [if_neg hij] at hlt
        refine ⟨⟨hi, hlt, hnone⟩, ?_⟩
        rintro rfl
        rcases lt_or_gt_of_ne hij with hlt' | hlt'
        · exact hnone j hlt' huser
        · exact hlater i hlt' hi
    · rw [if_neg fun hboth => hqueue hboth.2, h.entry]
      by_cases hij : i = j
      · subst hij
        rw [if_pos rfl]
        constructor
        · rintro ⟨hi, hlt, hnone⟩
          have hsame : userId = call.userId := some.inj (hi.symm.trans huser)
          subst hsame
          exact absurd (h.queueOf_eq_some.mpr ((h.entry _ _).mpr ⟨hi, hlt, hnone⟩)) hqueue
        · rintro ⟨-, hlt, -⟩
          omega
      · rw [if_neg hij]
  · rw [if_neg fun hboth => hlast hboth.1, h.entry]
    by_cases hij : i = j
    · subst hij
      rw [if_pos rfl]
      have hiff : s.rankOf i < 6 ↔ stage.rank < 6 := by omega
      rw [hiff]
    · rw [if_neg hij]

theorem Sound.moves_starts (h : Sound s) (m : Moves s j call stage t) (i : ℕ) :
    i ∈ t.starts ↔ 2 ≤ t.rankOf i := by
  have hrank := m.rank
  have hold := State.rankOf_eq m.found
  rw [m.starts, m.rankOf]
  by_cases hij : i = j
  · subst hij
    have hiff := h.starts i
    rw [if_pos rfl]
    split_ifs with htwo
    · simp only [mem_append, mem_singleton, or_true, true_iff]
      omega
    · rw [hiff]
      omega
  · rw [if_neg hij, ← h.starts i]
    split_ifs with htwo
    · simp [hij]
    · rfl

theorem Sound.moves_ordered (h : Sound s) (m : Moves s j call stage t) :
    t.starts.Pairwise fun i k => t.userOf i = t.userOf k → i < k := by
  have hrank := m.rank
  have hold := State.rankOf_eq m.found
  simp only [m.userOf, m.starts]
  split_ifs with htwo
  · rw [pairwise_append]
    refine ⟨h.ordered, pairwise_singleton .., fun i hi k hk huser => ?_⟩
    obtain rfl := mem_singleton.mp hk
    have hstarted := (h.starts i).mp hi
    by_contra hle
    rcases (Nat.le_of_not_lt hle).eq_or_lt with rfl | hlt
    · omega
    · -- a later call of the user has not moved yet
      have hcleaned := h.order k i hlt huser.symm (by omega)
      omega
  · exact h.ordered

theorem Sound.moves_outcomes (h : Sound s) (m : Moves s j call stage t) :
    (∀ i o, (i, o) ∈ t.outcomes ↔ t.taskOf i = some o) ∧ UniqueKeys Prod.fst t.outcomes := by
  have htask : ∀ i, t.taskOf i = if i = j then stage.task else s.taskOf i := by
    intro i
    rw [State.taskOf, m.stageOf]
    split_ifs <;> rfl
  have hold : s.taskOf j = call.stage.task := by simp [State.taskOf, State.stageOf, m.found]
  rcases m.outcomes with ⟨hsame, houtcomes⟩ | ⟨o, hnone, hsome, houtcomes⟩
  · rw [houtcomes]
    refine ⟨fun i o => ?_, h.oneOutcome⟩
    rw [htask, h.outcomes]
    split_ifs with hij
    · rw [hij, hold, hsame]
    · rfl
  · rw [houtcomes]
    have hnew : ∀ o', (j, o') ∉ s.outcomes := by
      intro o' hmem
      have := (h.outcomes j o').mp hmem
      rw [hold, hnone] at this
      cases this
    refine ⟨fun i o' => ?_, h.oneOutcome.append_singleton fun y hy hk => ?_⟩
    · rw [htask, mem_append, mem_singleton, h.outcomes]
      split_ifs with hij
      · subst hij
        rw [hold, hnone, hsome]
        simp [eq_comm]
      · simp [hij]
    · obtain ⟨i, o'⟩ := y
      obtain rfl : i = j := hk
      exact hnew o' hy

theorem Sound.moves (h : Sound s) (m : Moves s j call stage t) : Sound t where
  previous i k hk := by
    rw [m.previousOf] at hk
    rw [m.userOf, m.userOf]
    exact h.previous i k hk
  latest i k l hlt huser hl := by
    rw [m.previousOf] at hl
    rw [m.userOf, m.userOf] at huser
    exact h.latest i k l hlt huser hl
  alone i k hlt hk huser hl := by
    have hlength : t.calls.length = s.calls.length := by rw [m.calls]; simp [State.advance]
    rw [m.previousOf] at hl
    rw [m.userOf, m.userOf] at huser
    exact m.cleaned (h.alone i k hlt (by omega) huser hl)
  order i k hlt huser hk := by
    rw [m.userOf, m.userOf] at huser
    rw [m.rankOf] at hk
    refine m.cleaned ?_
    split_ifs at hk with hkj
    · subst hkj
      exact h.earlier_cleaned m hlt huser
    · exact h.order i k hlt huser hk
  unique := by
    rw [m.queues]
    split_ifs
    · exact h.unique.erase _
    · exact h.unique
  entry := h.moves_entry m
  starts := h.moves_starts m
  ordered := h.moves_ordered m
  outcomes := (h.moves_outcomes m).1
  oneOutcome := (h.moves_outcomes m).2

end

/-- An uncleaned call of a user is followed, or is itself, the one that the map holds. -/
theorem Sound.exists_entry (h : Sound s) {userId : String} (huser : s.userOf j = some userId)
    (hrank : s.rankOf j < 6) : ∃ k, j ≤ k ∧ (userId, k) ∈ s.userTaskQueues := by
  obtain ⟨call, hcall, -⟩ := State.exists_of_userOf huser
  obtain ⟨hlt, -⟩ := List.getElem?_eq_some_iff.mp hcall
  have hlast : s.userOf (Nat.findGreatest (fun k => s.userOf k = some userId) s.calls.length) =
      some userId := Nat.findGreatest_spec (P := fun k => s.userOf k = some userId) hlt.le huser
  have hle := Nat.le_findGreatest (P := fun k => s.userOf k = some userId) hlt.le huser
  refine ⟨_, hle, (h.entry _ _).mpr ⟨hlast, ?_, fun k hk hkuser => ?_⟩⟩
  · rcases hle.eq_or_lt with heq | hlt'
    · rw [← heq]
      exact hrank
    · by_contra hcleaned
      have := h.order _ _ hlt' (huser.trans hlast.symm) (by omega)
      omega
  · obtain ⟨c, hc, -⟩ := State.exists_of_userOf hkuser
    obtain ⟨hklt, -⟩ := List.getElem?_eq_some_iff.mp hc
    exact Nat.findGreatest_is_greatest hk hklt.le hkuser

section
variable {userId : String}

theorem userOf_runUserTask (i : ℕ) : (s.runUserTask userId).userOf i =
    if i = s.calls.length then some userId else s.userOf i := by
  rw [State.userOf, State.runUserTask, getElem?_append_singleton]
  split_ifs <;> rfl

theorem previousOf_runUserTask (i : ℕ) : (s.runUserTask userId).previousOf i =
    if i = s.calls.length then s.queueOf userId else s.previousOf i := by
  rw [State.previousOf, State.runUserTask, getElem?_append_singleton]
  split_ifs <;> rfl

theorem stageOf_runUserTask (i : ℕ) : (s.runUserTask userId).stageOf i =
    if i = s.calls.length then some .waiting else s.stageOf i := by
  rw [State.stageOf, State.runUserTask, getElem?_append_singleton]
  split_ifs <;> rfl

theorem rankOf_runUserTask (i : ℕ) : (s.runUserTask userId).rankOf i = s.rankOf i := by
  rw [State.rankOf, State.runUserTask, getElem?_append_singleton]
  split_ifs with hi
  · simp [hi, State.rankOf, Stage.rank]
  · rfl

theorem lt_of_userOf {u : String} (h : s.userOf i = some u) : i < s.calls.length := by
  obtain ⟨call, hcall, -⟩ := State.exists_of_userOf h
  exact (List.getElem?_eq_some_iff.mp hcall).1

theorem lt_of_rankOf (h : 0 < s.rankOf i) : i < s.calls.length := by
  obtain ⟨call, hcall⟩ := State.exists_of_rankOf h
  exact (List.getElem?_eq_some_iff.mp hcall).1

theorem State.rankOf_le (s : State V E) (i : ℕ) : s.rankOf i ≤ 6 := by
  unfold State.rankOf
  cases s.calls[i]? with
  | none => simp
  | some call => exact call.stage.rank_le

/-- Without an entry of the user, all the user's calls are cleaned up. -/
theorem Sound.cleaned_of_queueOf (h : Sound s) (hnone : s.queueOf userId = none)
    (huser : s.userOf i = some userId) : s.rankOf i = 6 := by
  have hle := s.rankOf_le i
  by_contra hne
  obtain ⟨k, -, hk⟩ := h.exists_entry huser (by omega)
  rw [h.queueOf_eq_some.mpr hk] at hnone
  cases hnone

theorem Sound.runUserTask (h : Sound s) (userId : String) : Sound (s.runUserTask userId) where
  previous j k hk := by
    simp only [previousOf_runUserTask, userOf_runUserTask] at hk ⊢
    by_cases hj : j = s.calls.length
    · rw [if_pos hj] at hk
      obtain ⟨huser, -, -⟩ := (h.entry _ _).mp (h.queueOf_eq_some.mp hk)
      have hlt := lt_of_userOf huser
      rw [if_pos hj, if_neg hlt.ne, huser]
      exact ⟨by omega, rfl⟩
    · rw [if_neg hj] at hk
      obtain ⟨hlt, huser⟩ := h.previous j k hk
      have hjlt : j < s.calls.length := by
        by_contra hge
        rw [State.previousOf, getElem?_eq_none (by omega)] at hk
        cases hk
      rw [if_neg hj, if_neg (by omega), huser]
      exact ⟨hlt, rfl⟩
  latest i j k hij huser hk := by
    simp only [previousOf_runUserTask, userOf_runUserTask] at hk huser
    by_cases hj : j = s.calls.length
    · rw [if_pos hj] at hk
      rw [if_pos hj, if_neg (by omega)] at huser
      obtain ⟨-, -, hlater⟩ := (h.entry _ _).mp (h.queueOf_eq_some.mp hk)
      exact Nat.le_of_not_lt fun hlt => hlater i hlt huser
    · rw [if_neg hj] at hk
      have hjlt : j < s.calls.length := by
        by_contra hge
        rw [State.previousOf, getElem?_eq_none (by omega)] at hk
        cases hk
      rw [if_neg hj, if_neg (by omega)] at huser
      exact h.latest i j k hij huser hk
  alone i j hij hj huser hnone := by
    have hlength : (s.runUserTask userId).calls.length = s.calls.length + 1 := by
      simp [State.runUserTask]
    simp only [previousOf_runUserTask, userOf_runUserTask, rankOf_runUserTask] at hnone huser ⊢
    by_cases hlast : j = s.calls.length
    · rw [if_pos hlast] at hnone
      rw [if_pos hlast, if_neg (by omega)] at huser
      exact h.cleaned_of_queueOf hnone huser
    · rw [if_neg hlast] at hnone
      rw [if_neg hlast, if_neg (by omega)] at huser
      exact h.alone i j hij (by omega) huser hnone
  order i j hij huser hj := by
    simp only [userOf_runUserTask, rankOf_runUserTask] at hj huser ⊢
    have hlt := lt_of_rankOf hj
    rw [if_neg (by omega), if_neg (by omega)] at huser
    exact h.order i j hij huser hj
  unique := h.unique.upsert _
  entry u i := by
    simp only [userOf_runUserTask, rankOf_runUserTask]
    change (u, i) ∈ upsert Prod.fst (userId, s.calls.length) s.userTaskQueues ↔ _
    rw [h.unique.mem_upsert_iff, h.entry]
    constructor
    · rintro (heq | ⟨⟨hi, hlt, hlater⟩, hne⟩)
      · obtain ⟨rfl, rfl⟩ := Prod.mk.inj heq
        refine ⟨if_pos rfl, ?_, fun k hk hkuser => ?_⟩
        · simp [State.rankOf]
        · rw [if_neg (by omega)] at hkuser
          exact absurd (lt_of_userOf hkuser) (by omega)
      · have hlt' := lt_of_userOf hi
        refine ⟨by rw [if_neg (by omega), hi], hlt, fun k hk hkuser => ?_⟩
        split_ifs at hkuser with hlast
        · exact hne (some.inj hkuser).symm
        · exact hlater k hk hkuser
    · rintro ⟨hi, hlt, hlater⟩
      by_cases hlast : i = s.calls.length
      · rw [if_pos hlast] at hi
        exact .inl (Prod.ext (some.inj hi).symm hlast)
      · rw [if_neg hlast] at hi
        have hi' := lt_of_userOf hi
        refine .inr ⟨⟨hi, hlt, fun k hk hkuser => ?_⟩, ?_⟩
        · refine hlater k hk ?_
          rw [if_neg (lt_of_userOf hkuser).ne, hkuser]
        · rintro rfl
          exact hlater _ hi' (if_pos rfl)
  starts i := by
    rw [rankOf_runUserTask]
    exact h.starts i
  ordered := by
    refine h.ordered.imp_of_mem fun {i j} hi hj hlt huser => ?_
    have hirank := (h.starts i).mp hi
    have hjrank := (h.starts j).mp hj
    rw [userOf_runUserTask, userOf_runUserTask, if_neg (lt_of_rankOf (by omega)).ne,
      if_neg (lt_of_rankOf (by omega)).ne] at huser
    exact hlt huser
  outcomes i o := by
    rw [State.taskOf, stageOf_runUserTask]
    refine (h.outcomes i o).trans ?_
    split_ifs with hlast
    · simp [State.taskOf, State.stageOf, hlast, Stage.task]
    · rfl
  oneOutcome := h.oneOutcome

end

theorem Sound.step {a : Action V E} (h : Sound s) (hstep : step s a = some t) : Sound t := by
  rcases step_cases hstep with ⟨userId, rfl, rfl⟩ | ⟨-, j, call, stage, hmoves⟩
  · exact h.runUserTask userId
  · exact h.moves hmoves

/-! ## Every task runs -/

/-- What neither runs nor has a microtask left is cleaned up, or waits for an earlier call that is
not. -/
theorem cleaned_or_waits {call : Call V E} (hcall : s.calls[j]? = some call)
    (hrunning : s.stageOf j ≠ some .running) (hreact : UserTasks.step s (.react j) = none) :
    s.rankOf j = 6 ∨ ∃ k, s.previousOf j = some k ∧ s.rankOf k ≠ 6 := by
  obtain ⟨userId, previous, stage⟩ := call
  have hstage : s.stageOf j = some stage := by simp [State.stageOf, hcall]
  simp only [UserTasks.step, hcall, State.react] at hreact
  cases stage with
  | waiting =>
    have hnot : s.hasSettled previous ≠ true := by
      intro hsettled
      simp [hsettled] at hreact
    rw [ne_eq, State.hasSettled_iff] at hnot
    simp only [not_forall] at hnot
    obtain ⟨k, hk, hrank⟩ := hnot
    exact .inr ⟨k, by simp [State.previousOf, hcall, hk], hrank⟩
  | caught => cases hreact
  | running => exact absurd hstage hrunning
  | returned o => cases hreact
  | next o => cases hreact
  | chain o => cases hreact
  | cleanup o => exact .inl (State.rankOf_eq hcall)

/-- When nothing of a user is left to run, all the user's calls are cleaned up. -/
theorem Sound.cleaned_of_quiet {userId : String} (h : Sound s) (hquiet : s.Quiet userId)
    (huser : s.userOf j = some userId) : s.rankOf j = 6 := by
  induction j using Nat.strong_induction_on with
  | _ j ih =>
    obtain ⟨call, hcall, -⟩ := State.exists_of_userOf huser
    obtain ⟨hrunning, hreact⟩ := hquiet j huser
    rcases cleaned_or_waits hcall hrunning hreact with hcleaned | ⟨k, hk, hne⟩
    · exact hcleaned
    · obtain ⟨hlt, hsame⟩ := h.previous j k hk
      exact absurd (ih k hlt (hsame.trans huser)) hne

theorem exists_result_of_cleaned (h : s.rankOf j = 6) :
    ∃ o, s.stageOf j >>= Stage.result = some o := by
  obtain ⟨call, hcall⟩ := State.exists_of_rankOf (s := s) (j := j) (by omega)
  have hrank := (State.rankOf_eq hcall).symm.trans h
  obtain ⟨userId, previous, stage⟩ := call
  cases stage with
  | cleanup o => exact ⟨o, by simp [State.stageOf, hcall, Stage.result]⟩
  | _ => cases hrank

theorem rankOf_of_running (h : s.stageOf j = some .running) : s.rankOf j = 2 := by
  obtain ⟨call, hcall, hstage⟩ := map_eq_some_iff.mp h
  rw [State.rankOf_eq hcall, hstage]
  rfl

theorem taskOf_of_result {o : Outcome V E} (h : s.stageOf j >>= Stage.result = some o) :
    s.taskOf j = some o := by
  obtain ⟨stage, hstage, hresult⟩ := bind_eq_some_iff.mp h
  rw [State.taskOf, hstage]
  cases stage with
  | next o => exact hresult
  | chain o => exact hresult
  | cleanup o => exact hresult
  | _ => cases hresult

theorem Sound.exclusive (h : Sound s) : Exclusive s where
  exclusive i j hi hj huser := by
    have hirank := rankOf_of_running hi
    have hjrank := rankOf_of_running hj
    rcases lt_trichotomy i j with hlt | heq | hlt
    · have := h.order i j hlt huser (by omega)
      omega
    · exact heq
    · have := h.order j i hlt huser.symm (by omega)
      omega
  ordered := h.ordered
  noneSkipped i j hij huser hj := by
    have hjrank := (h.starts j).mp hj
    have hcleaned := h.order i j hij huser (by omega)
    exact (h.starts i).mpr (by omega)
  once := h.ordered.imp fun {i j} hlt heq => by
    subst heq
    exact (hlt rfl).false
  oneOutcome := h.oneOutcome
  ownOutcome j o ho := (h.outcomes j o).mpr (taskOf_of_result ho)
  quiet userId hquiet := by
    refine ⟨fun j huser => ?_, ?_⟩
    · have hcleaned := h.cleaned_of_quiet hquiet huser
      exact ⟨(h.starts j).mpr (by omega), exists_result_of_cleaned hcleaned⟩
    · cases hqueue : s.queueOf userId with
      | none => rfl
      | some j =>
        obtain ⟨huser, hlt, -⟩ := (h.entry _ _).mp (h.queueOf_eq_some.mp hqueue)
        have hcleaned := h.cleaned_of_quiet hquiet huser
        omega
  terminates a t hstep hcall := by
    rcases step_cases hstep with ⟨userId, rfl, rfl⟩ | ⟨-, j, call, stage, hmoves⟩
    · exact absurd trivial hcall
    · exact hmoves.work

end FestivalPlanner.UserTasks
