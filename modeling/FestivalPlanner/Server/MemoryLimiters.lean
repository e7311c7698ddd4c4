import FestivalPlanner.Lib.History
import FestivalPlanner.Server.RateLimits
import Mathlib.Data.List.Perm.Subperm

/-!
# The limiters that count in memory

Each limiter keeps a map of the process with an entry for every key: when its window started and
how many requests it counted since.  The map holds the keys in the order in which they came, a
window that is over is started again in its place, and the first entry leaves when there are too
many.

* `consumeSocketRateLimit`, `consumeUserAuthRateLimit`, `SocketEventLimiter.consume` — the limiters
  that have no Redis (`lib/rate-limiting.ts`); the others are in `Server.RateLimits`;
* `cleanUp` — the entries that a timer drops (`lib/app-context/index.ts`);
* `Limiter`, `Limiter.act_eq` — the six limiters, which differ in five values, their `Rules`;
* `Does` — everything that one call or one clean-up can do;
* `Sound` — what the map is at any time, `Sound.concat` and `run_steps` that it stays so;
* `Forgets` — what the limiters are for, `limiter_forgets` that they do it.
-/

namespace FestivalPlanner.MemoryLimiters

open Keyed RateLimits List Option

/-! ## The limiters -/

structure SocketConfig extends Config where
  SOCKET_EVENT_WINDOW : ℤ

/-- Drops the first entries over the cap. -/
@[grind =] def trim (cap : ℕ) (buckets : List Bucket) : List Bucket := buckets.drop (buckets.length - cap)

/-- Counts a request in the entry of its key, or in a new one when that is too old. -/
def countIn (cap : ℕ) (windowMs now : ℤ) (key : String) (buckets : List Bucket) :
    Bucket × List Bucket :=
  let fresh : Bucket := { key := key, start := now, count := 1 }
  match lookup Bucket.key key buckets with
  | none => (fresh, trim cap (upsert Bucket.key fresh buckets))
  | some entry =>
      if windowMs < now - entry.start then (fresh, trim cap (upsert Bucket.key fresh buckets))
      else
        let entry := { entry with count := entry.count + 1 }
        (entry, upsert Bucket.key entry buckets)

theorem countRequest_eq (config : Config) (windowMs now : ℤ) (key : String) (m : Memory) :
    countRequest config windowMs now key m =
      ((countIn config.MAX_RATE_LIMIT_ENTRIES windowMs now key m.buckets).1,
        { m with buckets :=
            (countIn config.MAX_RATE_LIMIT_ENTRIES windowMs now key m.buckets).2 }) := by
  unfold countRequest countIn
  cases lookup Bucket.key key m.buckets with
  | none => rfl
  | some entry =>
    by_cases h : windowMs < now - entry.start
    · simp only [if_pos h]
      rfl
    · simp only [if_neg h]

def consumeSocketRateLimit (config : SocketConfig) (now : ℤ) (scopeKey : String) (max : ℤ)
    (m : Memory) : Bool × Memory :=
  let (entry, m) := countRequest config.toConfig config.SOCKET_EVENT_WINDOW now scopeKey m
  (decide (entry.count ≤ max), m)

def consumeUserAuthRateLimit (config : SocketConfig) (now : ℤ) (userId : String) (max : ℤ)
    (m : Memory) : Bool × Memory :=
  let (entry, m) := countRequest config.toConfig config.AUTH_RATE_LIMIT_WINDOW now userId m
  (decide (entry.count ≤ max), m)

/-- What `_createSocketEventLimiter` is called with. -/
structure SocketEventLimiter where
  max : ℤ
  windowMs : ℤ

def MAX_ENTRIES : ℕ := 10000

/-- What a limiter of socket events answers. -/
structure EventVerdict where
  allowed : Bool
  remaining : ℤ
  resetAt : ℤ

/-- `consume` of `_createSocketEventLimiter`; who has no id is not counted. -/
def SocketEventLimiter.consume (limiter : SocketEventLimiter) (now : ℤ) (userId : String)
    (buckets : List Bucket) : EventVerdict × List Bucket :=
  if userId = "" then (⟨true, limiter.max, now + limiter.windowMs⟩, buckets)
  else
    let (entry, buckets) := countIn MAX_ENTRIES limiter.windowMs now userId buckets
    let resetAt := entry.start + limiter.windowMs
    let remaining := Max.max 0 (limiter.max - entry.count)
    (⟨decide (entry.count ≤ limiter.max), remaining, resetAt⟩, buckets)

/-- The timer of the application drops the entries whose window started two windows ago. -/
def cleanUp (windowMs now : ℤ) (buckets : List Bucket) : List Bucket :=
  let cutoff := now - windowMs * 2
  buckets.filter (fun entry => decide (¬ entry.start < cutoff))

/-- The limiters: the fallback of `rateLimit`, `createAuthRateLimiter`, `consumeSocketRateLimit`,
`consumeUserAuthRateLimit`, `consumeSocketConnectRateLimitLocal`, and one of socket events. -/
inductive Limiter where
  | fallback
  | auth
  | socket
  | userAuth
  | connect
  | event (limiter : SocketEventLimiter)

/-- A request of a key, with the maximum that its caller asks for, or a clean-up. -/
inductive Action where
  | consume (key : String) (max now : ℤ)
  | cleanUp (now : ℤ)
  deriving DecidableEq

def Action.now : Action → ℤ
  | .consume _ _ now => now
  | .cleanUp now => now

namespace Limiter

variable (config : SocketConfig)

/-- Is the request let through, and the map after it. -/
def consume (l : Limiter) (key : String) (max now : ℤ) (buckets : List Bucket) :
    Bool × List Bucket :=
  match l with
  | .fallback =>
      let (verdict, m) :=
        byMemory config.toConfig max config.RATE_LIMIT_WINDOW now key ⟨buckets, 0⟩
      (!verdict.limited, m.buckets)
  | .auth =>
      let (outcome, m) := authByMemory config.toConfig now key ⟨buckets, 0⟩
      (decide (outcome = .next), m.buckets)
  | .socket =>
      let (allowed, m) := consumeSocketRateLimit config now key max ⟨buckets, 0⟩
      (allowed, m.buckets)
  | .userAuth =>
      let (allowed, m) := consumeUserAuthRateLimit config now key max ⟨buckets, 0⟩
      (allowed, m.buckets)
  | .connect =>
      let (allowed, m) := consumeSocketConnectRateLimitLocal config.toConfig now key ⟨buckets, 0⟩
      (allowed, m.buckets)
  | .event limiter =>
      let (verdict, buckets) := limiter.consume now key buckets
      (verdict.allowed, buckets)

/-- The timer knows the maps of the application, not those of the socket events. -/
def cleaned (l : Limiter) (now : ℤ) (buckets : List Bucket) : List Bucket :=
  match l with
  | .fallback => cleanUp config.RATE_LIMIT_WINDOW now buckets
  | .auth => cleanUp config.AUTH_RATE_LIMIT_WINDOW now buckets
  | .socket => cleanUp config.SOCKET_EVENT_WINDOW now buckets
  | .userAuth => cleanUp config.AUTH_RATE_LIMIT_WINDOW now buckets
  | .connect => cleanUp config.SOCKET_CONNECT_WINDOW now buckets
  | .event _ => buckets

def act (l : Limiter) (buckets : List Bucket) : Action → Bool × List Bucket
  | .consume key max now => l.consume config key max now buckets
  | .cleanUp now => (true, l.cleaned config now buckets)

end Limiter

/-! ## One limiter for all -/

/-- What the limiters differ in. -/
structure Rules where
  cap : ℕ
  windowMs : ℤ
  /-- how many requests are let through when the caller asks for a maximum -/
  allowance : ℤ → ℤ
  counts : String → Bool
  /-- does the timer know the map? -/
  timed : Bool

def Rules.act (r : Rules) (buckets : List Bucket) : Action → Bool × List Bucket
  | .consume key max now =>
      if r.counts key then
        let (entry, buckets) := countIn r.cap r.windowMs now key buckets
        (decide (entry.count ≤ r.allowance max), buckets)
      else (true, buckets)
  | .cleanUp now => (true, if r.timed then MemoryLimiters.cleanUp r.windowMs now buckets
      else buckets)

def Limiter.rules (config : SocketConfig) : Limiter → Rules
  | .fallback =>
      { cap := config.MAX_RATE_LIMIT_ENTRIES, windowMs := config.RATE_LIMIT_WINDOW
        allowance := fallbackMax config.toConfig, counts := fun _ => true, timed := true }
  | .auth =>
      { cap := config.MAX_RATE_LIMIT_ENTRIES, windowMs := config.AUTH_RATE_LIMIT_WINDOW
        allowance := fun _ => fallbackMax config.toConfig config.AUTH_RATE_LIMIT_MAX
        counts := fun _ => true, timed := true }
  | .socket =>
      { cap := config.MAX_RATE_LIMIT_ENTRIES, windowMs := config.SOCKET_EVENT_WINDOW
        allowance := fun max => max, counts := fun _ => true, timed := true }
  | .userAuth =>
      { cap := config.MAX_RATE_LIMIT_ENTRIES, windowMs := config.AUTH_RATE_LIMIT_WINDOW
        allowance := fun max => max, counts := fun _ => true, timed := true }
  | .connect =>
      { cap := config.MAX_RATE_LIMIT_ENTRIES, windowMs := config.SOCKET_CONNECT_WINDOW
        allowance := fun _ => fallbackMax config.toConfig config.SOCKET_CONNECT_RATE_LIMIT
        counts := fun _ => true, timed := true }
  | .event limiter =>
      { cap := MAX_ENTRIES, windowMs := limiter.windowMs, allowance := fun _ => limiter.max
        counts := fun userId => decide (userId ≠ ""), timed := false }

theorem Limiter.act_eq (config : SocketConfig) (l : Limiter) :
    l.act config = (l.rules config).act := by
  funext buckets a
  cases a with
  | cleanUp now => cases l <;> rfl
  | consume key max now =>
    cases l with
    | fallback =>
      simp only [Limiter.act, Limiter.consume, byMemory, countRequest_eq, Rules.act, Limiter.rules,
        if_true, ← decide_not, not_lt]
      exact Prod.ext (decide_eq_decide.mpr Iff.rfl) rfl
    | auth =>
      simp only [Limiter.act, Limiter.consume, authByMemory, countRequest_eq, Rules.act,
        Limiter.rules, if_true]
      split
      · rename_i h
        simp [not_le.mpr h]
      · rename_i h
        simp [not_lt.mp h]
    | socket =>
      simp only [Limiter.act, Limiter.consume, consumeSocketRateLimit, countRequest_eq]
      rfl
    | userAuth =>
      simp only [Limiter.act, Limiter.consume, consumeUserAuthRateLimit, countRequest_eq]
      rfl
    | connect =>
      simp only [Limiter.act, Limiter.consume, consumeSocketConnectRateLimitLocal, countRequest_eq]
      rfl
    | event limiter =>
      by_cases h : key = ""
      · simp [Limiter.act, Limiter.consume, SocketEventLimiter.consume, Rules.act, Limiter.rules, h]
      · simp [Limiter.act, Limiter.consume, SocketEventLimiter.consume, Rules.act, Limiter.rules, h]

/-! ## What one action can do -/

/-- Everything that an action can answer and leave, from the map `m`. -/
inductive Does (r : Rules) (m : List Bucket) : Action → Bool × List Bucket → Prop
  | skips {key : String} {max now : ℤ} (hkey : r.counts key = false) :
      Does r m (.consume key max now) (true, m)
  | begins {key : String} {max now : ℤ} (hkey : r.counts key = true)
      (hnew : ∀ b, lookup Bucket.key key m = some b → r.windowMs < now - b.start) :
      Does r m (.consume key max now)
        (decide (1 ≤ r.allowance max), trim r.cap (upsert Bucket.key ⟨key, now, 1⟩ m))
  | counts {key : String} {max now : ℤ} {b : Bucket} (hkey : r.counts key = true)
      (hb : lookup Bucket.key key m = some b) (hin : now - b.start ≤ r.windowMs) :
      Does r m (.consume key max now)
        (decide (b.count + 1 ≤ r.allowance max),
          upsert Bucket.key { b with count := b.count + 1 } m)
  | cleans {now : ℤ} {m' : List Bucket} (hm' : m'.Sublist m)
      (hkept : ∀ b ∈ m, now - r.windowMs * 2 ≤ b.start → b ∈ m') :
      Does r m (.cleanUp now) (true, m')

theorem does_act (r : Rules) (m : List Bucket) (a : Action) : Does r m a (r.act m a) := by
  cases a with
  | consume key max now =>
    cases hkey : r.counts key with
    | false =>
      simp only [Rules.act, hkey]
      exact .skips hkey
    | true =>
      simp only [Rules.act, hkey, if_true, countIn]
      cases hb : lookup Bucket.key key m with
      | none => exact .begins hkey fun b hb' => by simp [hb] at hb'
      | some b =>
        by_cases hold : r.windowMs < now - b.start
        · simp only [if_pos hold]
          refine .begins hkey fun b' hb' => ?_
          obtain rfl := some.inj (hb.symm.trans hb')
          exact hold
        · simp only [if_neg hold]
          exact .counts hkey hb (not_lt.mp hold)
  | cleanUp now =>
    cases ht : r.timed with
    | false =>
      simp only [Rules.act, ht]
      exact .cleans (List.Sublist.refl m) fun b hb _ => hb
    | true =>
      simp only [Rules.act, ht, if_true]
      refine .cleans filter_sublist fun b hb hle => ?_
      exact mem_filter.mpr ⟨hb, by simpa using hle⟩

/-- A new window pushes nothing out, or the map was full, its key is new and the first entry
leaves. -/
theorem trim_upsert {cap : ℕ} {m : List Bucket} (hm : m.length ≤ cap) (fresh : Bucket) :
    trim cap (upsert Bucket.key fresh m) = upsert Bucket.key fresh m ∨
      lookup Bucket.key fresh.key m = none ∧ m.length = cap ∧
        trim cap (upsert Bucket.key fresh m) = (m ++ [fresh]).drop 1 := by
  unfold trim
  cases hlook : lookup Bucket.key fresh.key m with
  | some b =>
    have hkeys := map_upsert_of_lookup hlook (mem_of_lookup hlook).2.symm
    have hlen : (upsert Bucket.key fresh m).length = m.length := by
      simpa using congrArg List.length hkeys
    exact .inl (by rw [hlen, Nat.sub_eq_zero_of_le hm, drop_zero])
  | none =>
    rw [upsert_of_lookup_eq_none hlook, length_append, length_singleton]
    rcases Nat.lt_or_ge m.length cap with hlt | hge
    · exact .inl (by rw [Nat.sub_eq_zero_of_le (by omega), drop_zero])
    · have hcap : m.length = cap := le_antisymm hm hge
      exact .inr ⟨rfl, hcap, by rw [hcap, Nat.add_sub_cancel_left]⟩

theorem trim_sublist (cap : ℕ) (m : List Bucket) : (trim cap m).Sublist m := drop_sublist _ _

theorem length_trim_le (cap : ℕ) (m : List Bucket) : (trim cap m).length ≤ cap := by
  unfold trim
  rw [length_drop]
  omega

/-! ## What happened so far -/

/-- One action: the map before it, the answer and the map after it. -/
structure Step where
  before : List Bucket
  action : Action
  allowed : Bool
  after : List Bucket
  deriving DecidableEq

def step (act : List Bucket → Action → Bool × List Bucket) (m : List Bucket) (a : Action) : Step :=
  ⟨m, a, (act m a).1, (act m a).2⟩

def steps (act : List Bucket → Action → Bool × List Bucket) :
    List Bucket → List Action → List Step
  | _, [] => []
  | m, a :: as => step act m a :: steps act (act m a).2 as

namespace Step

def now (s : Step) : ℤ := s.action.now

/-- Is it a request of the key? -/
def asks (s : Step) (k : String) : Bool :=
  match s.action with
  | .consume key _ _ => decide (key = k)
  | .cleanUp _ => false

def admits (s : Step) (k : String) : Bool := s.asks k && s.allowed

/-- The most that the caller lets through. -/
def allowance (r : Rules) (s : Step) : ℤ :=
  match s.action with
  | .consume _ max _ => r.allowance max
  | .cleanUp _ => 0

/-- A request starts a window of its key when there is none, or the one there is over. -/
def begins (r : Rules) (s : Step) (k : String) : Bool :=
  s.asks k && r.counts k &&
    (lookup Bucket.key k s.before).all (fun b => decide (r.windowMs < s.now - b.start))

/-- The request of some key leaves this one, which had an entry or asked for one, without. -/
@[grind =] def evicts (s : Step) (k : String) : Bool :=
  (match s.action with
    | .consume _ _ _ => true
    | .cleanUp _ => false) &&
    (s.asks k || (lookup Bucket.key k s.before).isSome) && (lookup Bucket.key k s.after).isNone

end Step

/-- The request that started the last window of a key. -/
def lastBegin (r : Rules) (past : List Step) (k : String) : Option Step :=
  (past.filter (·.begins r k)).getLast?

/-- Was the last window of the key started in the place of the one before? -/
def restarted (r : Rules) (past : List Step) (k : String) : Bool :=
  (lastBegin r past k).any (fun s => (lookup Bucket.key k s.before).isSome)

/-- The callers let through at most `M` requests of the key. -/
def AtMost (r : Rules) (M : ℤ) (k : String) (l : List Step) : Prop :=
  ∀ s ∈ l, s.asks k = true → s.allowance r ≤ M

/-- What the limiters are for.  `D` says which evictions are looked at, and `needed` how many other
keys it takes for one. -/
structure Forgets (r : Rules) (D : List Step → String → Prop) (needed : ℕ) (l : List Step) :
    Prop where
  perWindow : ∀ k M past s during future, l = past ++ s :: (during ++ future) →
    AtMost r M k (s :: during) → s.begins r k = true → (∀ x ∈ during, x.begins r k = false) →
      (s :: during).countP (·.admits k) ≤ M.toNat
  perInterval : ∀ k M t, r.counts k = true → AtMost r M k l →
    (∀ s ∈ l, t ≤ s.now → s.now ≤ t + r.windowMs → s.evicts k = false) →
      l.countP (fun s => s.admits k && decide (t ≤ s.now) && decide (s.now ≤ t + r.windowMs)) ≤
        2 * M.toNat
  startedFirst : ∀ past s future, l = past ++ s :: future → ∀ b ∈ s.before,
    s.evicts b.key = true → D past b.key → ∀ o ∈ s.after, b.start ≤ o.start
  lost : ∀ past s future, l = past ++ s :: future → ∀ b ∈ s.before,
    s.now ≤ b.start + r.windowMs → (∀ o ∈ s.after, o.key = b.key → o.start ≠ b.start) →
      s.evicts b.key = true ∧ (D past b.key → ∃ keys : List String, keys.Nodup ∧
        b.key ∉ keys ∧ needed ≤ keys.length ∧ ∀ k ∈ keys, ∃ x ∈ past ++ [s],
          x.begins r k = true ∧ b.start ≤ x.now)

/-! ## What the map is at any time -/

variable {m' : List Bucket} {key : String} {max now M : ℤ} {ok : Bool} {b : Bucket}
  {during : List Step}

section
variable {r : Rules} {past : List Step}

theorem lastBegin_concat (s : Step) (k : String) :
    lastBegin r (past ++ [s]) k = if s.begins r k then some s else lastBegin r past k := by
  unfold lastBegin
  rw [filter_append]
  by_cases h : s.begins r k = true
  · simp [h]
  · simp [h]

theorem mem_of_lastBegin {s : Step} {k : String} (h : lastBegin r past k = some s) :
    s ∈ past ∧ s.begins r k = true := by
  simpa using mem_filter.mp (mem_of_getLast? h)

theorem restarted_concat_of_not_begins {s : Step} {k : String} (h : s.begins r k = false) :
    restarted r (past ++ [s]) k = restarted r past k := by
  simp [restarted, lastBegin_concat, h]

theorem begins_iff {s : Step} {k : String} :
    s.begins r k = true ↔ s.asks k = true ∧ r.counts k = true ∧
      ∀ b, lookup Bucket.key k s.before = some b → r.windowMs < s.now - b.start := by
  unfold Step.begins
  simp only [Bool.and_eq_true, decide_eq_true_eq, Option.all_eq_true, and_assoc]

theorem begins_consume {m : List Bucket} {k : String} :
    Step.begins r ⟨m, .consume key max now, ok, m'⟩ k = true ↔ key = k ∧ r.counts k = true ∧
      ∀ b, lookup Bucket.key k m = some b → r.windowMs < now - b.start := by
  rw [begins_iff]
  simp only [Step.asks, Step.now, Action.now, decide_eq_true_eq]

/-- The map after the steps `past`: the entries are those of the windows that were started last,
and one whose window was not started in place is not younger than those after it. -/
structure Sound (r : Rules) (past : List Step) (m : List Bucket) : Prop where
  unique : UniqueKeys Bucket.key m
  size : m.length ≤ r.cap
  counted : ∀ b ∈ m, 0 < b.count
  begun : ∀ b ∈ m, ∃ s, lastBegin r past b.key = some s ∧ s.now = b.start
  ordered : m.Pairwise (fun b c => restarted r past b.key = false → b.start ≤ c.start)

theorem sound_nil : Sound r [] [] :=
  { unique := nodup_nil
    size := Nat.zero_le _
    counted := fun _ hb => by cases hb
    begun := fun _ hb => by cases hb
    ordered := List.Pairwise.nil }

/-- The key and the start of a window. -/
def window (b : Bucket) : String × ℤ := (b.key, b.start)

/-- A step that starts no window of the entries that it leaves. -/
theorem Sound.keep {s : Step} {m : List Bucket} (h : Sound r past m)
    (hm' : (m'.map window).Sublist (m.map window)) (hcounts : ∀ b ∈ m', 0 < b.count)
    (hbegins : ∀ b ∈ m', s.begins r b.key = false) : Sound r (past ++ [s]) m' := by
  refine ⟨?_, ?_, hcounts, ?_, ?_⟩
  · have hsub := hm'.map Prod.fst
    rw [List.map_map, List.map_map] at hsub
    exact hsub.nodup h.unique
  · have hlen := hm'.length_le
    rw [length_map, length_map] at hlen
    exact le_trans hlen h.size
  · intro b hb
    obtain ⟨b₀, hb₀, hw⟩ := List.mem_map.mp (hm'.subset (List.mem_map_of_mem hb))
    obtain ⟨hkey, hstart⟩ := Prod.mk.inj hw
    obtain ⟨x, hx, hnow⟩ := h.begun b₀ hb₀
    rw [lastBegin_concat, hbegins b hb, ← hkey, ← hstart]
    exact ⟨x, hx, hnow⟩
  · have hpairs : (m.map window).Pairwise
        (fun p q => restarted r past p.1 = false → p.2 ≤ q.2) :=
      pairwise_map.mpr h.ordered
    refine (pairwise_map.mp (hpairs.sublist hm')).imp_of_mem fun {b c} hb _ hbc hnot => ?_
    rw [restarted_concat_of_not_begins (hbegins b hb)] at hnot
    exact hbc hnot

theorem Sound.start_le {m : List Bucket} (h : Sound r past m) (hlater : ∀ x ∈ past, x.now ≤ now) :
    ∀ b ∈ m, b.start ≤ now := by
  intro b hb
  obtain ⟨x, hx, hnow⟩ := h.begun b hb
  rw [← hnow]
  exact hlater x (mem_of_lastBegin hx).1

/-- A step that starts a window. -/
theorem Sound.begin {m : List Bucket} (h : Sound r past m) (hlater : ∀ x ∈ past, x.now ≤ now)
    (hbegins : Step.begins r ⟨m, .consume key max now, ok, m'⟩ key = true) :
    Sound r (past ++ [⟨m, .consume key max now, ok, m'⟩])
      (trim r.cap (upsert Bucket.key ⟨key, now, 1⟩ m)) := by
  have hother : ∀ k, k ≠ key →
      Step.begins r ⟨m, .consume key max now, ok, m'⟩ k = false := by
    intro k hk
    rw [Bool.eq_false_iff]
    intro hb
    exact hk (begins_consume.mp hb).1.symm
  have hmem : ∀ b, b ∈ upsert Bucket.key ⟨key, now, 1⟩ m → b = ⟨key, now, 1⟩ ∨
      b ∈ m ∧ b.key ≠ key := fun b hb => h.unique.mem_upsert_iff.mp hb
  have hstart := h.start_le hlater
  refine ⟨(drop_sublist _ _).map _ |>.nodup (h.unique.upsert _), length_trim_le _ _, ?_, ?_,
    List.Pairwise.sublist (trim_sublist _ _) (pairwise_upsert ?_ ?_ ?_)⟩
  · intro b hb
    rcases hmem b ((trim_sublist _ _).subset hb) with rfl | ⟨hb, -⟩
    · exact one_pos
    · exact h.counted b hb
  · intro b hb
    rw [lastBegin_concat]
    rcases hmem b ((trim_sublist _ _).subset hb) with rfl | ⟨hb, hne⟩
    · rw [if_pos hbegins]
      exact ⟨_, rfl, rfl⟩
    · rw [hother b.key hne]
      exact h.begun b hb
  · -- a window that is started again in its place has no claim on the order
    refine h.ordered.imp_of_mem fun {b c} hb _ hbc hnot => ?_
    by_cases hk : b.key = key
    · have hlook := lookup_of_mem h.unique hb
      rw [hk] at hlook hnot
      simp [restarted, lastBegin_concat, hbegins, hlook] at hnot
    · rw [restarted_concat_of_not_begins (hother b.key hk)] at hnot
      exact hbc hnot
  · intro b hb _ _
    exact hstart b hb
  · intro b hb hk c _ hnot
    have hlook := lookup_of_mem h.unique hb
    rw [show b.key = key from hk] at hlook
    simp [restarted, lastBegin_concat, hbegins, hlook] at hnot

/-- A step as the rules have it. -/
def Step.Lawful (r : Rules) (s : Step) : Prop := Does r s.before s.action (s.allowed, s.after)

theorem lawful_step (r : Rules) (m : List Bucket) (a : Action) : (step r.act m a).Lawful r :=
  does_act r m a

theorem Sound.concat {s : Step} (h : Sound r past s.before) (hs : s.Lawful r)
    (hlater : ∀ x ∈ past, x.now ≤ s.now) : Sound r (past ++ [s]) s.after := by
  obtain ⟨m, a, ok, m'⟩ := s
  change Does r m a (ok, m') at hs
  change Sound r past m at h
  generalize hout : (ok, m') = out at hs
  cases hs with
  | skips hkey =>
    obtain ⟨-, rfl⟩ := Prod.mk.inj hout
    refine h.keep (List.Sublist.refl _) h.counted fun b _ => ?_
    rw [Bool.eq_false_iff]
    intro hb
    obtain ⟨rfl, hcounts, -⟩ := begins_consume.mp hb
    simp [hkey] at hcounts
  | begins hkey hnew =>
    obtain ⟨-, rfl⟩ := Prod.mk.inj hout
    exact h.begin hlater (begins_consume.mpr ⟨rfl, hkey, hnew⟩)
  | @counts key max now b hkey hb hin =>
    obtain ⟨-, rfl⟩ := Prod.mk.inj hout
    obtain ⟨hmem, rfl⟩ := mem_of_lookup hb
    have hmap : (upsert Bucket.key { b with count := b.count + 1 } m).map window = m.map window :=
      map_upsert_of_lookup hb rfl
    refine h.keep (by rw [hmap]) ?_ fun c _ => ?_
    · intro c hc
      rcases mem_or_eq_of_mem_upsert hc with rfl | hc
      · have := h.counted b hmem
        show 0 < b.count + 1
        omega
      · exact h.counted c hc
    · rw [Bool.eq_false_iff]
      intro hbeg
      obtain ⟨hkeys, -, hover⟩ := begins_consume.mp hbeg
      have := hover b (hkeys ▸ hb)
      omega
  | cleans hm' hkept =>
    obtain ⟨-, rfl⟩ := Prod.mk.inj hout
    exact h.keep (hm'.map _) (fun b hb => h.counted b (hm'.subset hb)) fun _ _ => rfl

end

/-! ## What a step does to a key -/

namespace Step.Lawful

variable {r : Rules} {s : Step} {k : String}

/-- The requests of other keys and the clean-ups leave the entry of a key alone or drop it. -/
theorem other (hs : s.Lawful r) (hu : UniqueKeys Bucket.key s.before) (hk : s.asks k = false) :
    lookup Bucket.key k s.after = lookup Bucket.key k s.before ∨
      lookup Bucket.key k s.after = none := by
  obtain ⟨m, a, ok, m'⟩ := s
  change Does r m a (ok, m') at hs
  change UniqueKeys Bucket.key m at hu
  show lookup Bucket.key k m' = lookup Bucket.key k m ∨ lookup Bucket.key k m' = none
  generalize hout : (ok, m') = out at hs
  cases hs with
  | skips hkey =>
    obtain ⟨-, rfl⟩ := Prod.mk.inj hout
    exact .inl rfl
  | @begins key max now hkey hnew =>
    obtain ⟨-, rfl⟩ := Prod.mk.inj hout
    have hne : key ≠ k := of_decide_eq_false hk
    have hsub := (hu.upsert (⟨key, now, 1⟩ : Bucket)).lookup_sublist (trim_sublist r.cap _) k
    rwa [lookup_upsert, if_neg hne] at hsub
  | @counts key max now b hkey hb hin =>
    obtain ⟨-, rfl⟩ := Prod.mk.inj hout
    have hne : key ≠ k := of_decide_eq_false hk
    have hbk : b.key = key := (mem_of_lookup hb).2
    exact .inl (by rw [lookup_upsert, if_neg (by rw [hbk]; exact hne)])
  | cleans hm' hkept =>
    obtain ⟨-, rfl⟩ := Prod.mk.inj hout
    exact hu.lookup_sublist hm' k

/-- A request starts a window of its key, or is counted in the one there is. -/
theorem own (hs : s.Lawful r) (hu : UniqueKeys Bucket.key s.before) (hk : s.asks k = true)
    (hc : r.counts k = true) :
    (s.begins r k = true ∧ s.allowed = decide (1 ≤ s.allowance r) ∧
      (lookup Bucket.key k s.after = some ⟨k, s.now, 1⟩ ∨ lookup Bucket.key k s.after = none)) ∨
    (s.begins r k = false ∧ ∃ b, lookup Bucket.key k s.before = some b ∧
      lookup Bucket.key k s.after = some { b with count := b.count + 1 } ∧
        s.allowed = decide (b.count + 1 ≤ s.allowance r)) := by
  obtain ⟨m, a, ok, m'⟩ := s
  change Does r m a (ok, m') at hs
  change UniqueKeys Bucket.key m at hu
  generalize hout : (ok, m') = out at hs
  cases hs with
  | skips hkey =>
    obtain rfl : _ = k := of_decide_eq_true hk
    rw [hkey] at hc
    cases hc
  | @begins key max now hkey hnew =>
    obtain ⟨rfl, rfl⟩ := Prod.mk.inj hout
    obtain rfl : key = k := of_decide_eq_true hk
    refine .inl ⟨begins_consume.mpr ⟨rfl, hkey, hnew⟩, rfl, ?_⟩
    have hsub := (hu.upsert (⟨key, now, 1⟩ : Bucket)).lookup_sublist (trim_sublist r.cap _) key
    rwa [lookup_upsert, if_pos rfl] at hsub
  | @counts key max now b hkey hb hin =>
    obtain ⟨rfl, rfl⟩ := Prod.mk.inj hout
    obtain rfl : key = k := of_decide_eq_true hk
    refine .inr ⟨?_, b, hb, ?_, rfl⟩
    · rw [Bool.eq_false_iff]
      intro hbeg
      have := (begins_consume.mp hbeg).2.2 b hb
      omega
    · show lookup Bucket.key key (upsert Bucket.key { b with count := b.count + 1 } m) = _
      rw [lookup_upsert, if_pos (mem_of_lookup hb).2]
  | cleans hm' hkept => cases hk

/-- Inside its window an entry stays, unless it is evicted. -/
theorem kept (hs : s.Lawful r) (hu : UniqueKeys Bucket.key s.before)
    (hb : lookup Bucket.key k s.before = some b) (hstart : b.start ≤ s.now)
    (hin : s.now ≤ b.start + r.windowMs) :
    (∃ o, lookup Bucket.key k s.after = some o ∧ o.start = b.start) ∨ s.evicts k = true := by
  by_cases hk : s.asks k = true
  · by_cases hc : r.counts k = true
    · rcases hs.own hu hk hc with ⟨hbeg, -, -⟩ | ⟨-, b', hb', hafter, -⟩
      · have := (begins_iff.mp hbeg).2.2 b hb
        omega
      · obtain rfl := some.inj (hb.symm.trans hb')
        exact .inl ⟨_, hafter, rfl⟩
    · obtain ⟨m, a, ok, m'⟩ := s
      change Does r m a (ok, m') at hs
      generalize hout : (ok, m') = out at hs
      cases hs with
      | skips hkey =>
        obtain ⟨-, rfl⟩ := Prod.mk.inj hout
        exact .inl ⟨b, hb, rfl⟩
      | begins hkey hnew =>
        obtain rfl : _ = k := of_decide_eq_true hk
        exact absurd hkey hc
      | counts hkey hb' hin' =>
        obtain rfl : _ = k := of_decide_eq_true hk
        exact absurd hkey hc
      | cleans hm' hkept => cases hk
  · have hk : s.asks k = false := by simpa using hk
    rcases hs.other hu hk with hafter | hafter
    · exact .inl ⟨b, hafter.trans hb, rfl⟩
    · right
      obtain ⟨m, a, ok, m'⟩ := s
      cases a with
      | consume key max now =>
        show (true && (decide (key = k) || (lookup Bucket.key k m).isSome) &&
          (lookup Bucket.key k m').isNone) = true
        rw [show lookup Bucket.key k m = some b from hb,
          show lookup Bucket.key k m' = none from hafter]
        simp
      | cleanUp now =>
        -- a clean-up drops what is two windows old
        change Does r m (.cleanUp now) (ok, m') at hs
        generalize hout : (ok, m') = out at hs
        cases hs with
        | cleans hm' hkept =>
          obtain ⟨-, rfl⟩ := Prod.mk.inj hout
          obtain ⟨hmem, rfl⟩ := mem_of_lookup hb
          change b.start ≤ now at hstart
          change now ≤ b.start + r.windowMs at hin
          exact absurd rfl (lookup_eq_none.mp hafter b (hkept b hmem (by omega)))

/-- The evicted entry was the first one of a full map. -/
theorem evicted (hs : s.Lawful r) {past : List Step} (h : Sound r past s.before)
    (hb : b ∈ s.before) (hev : s.evicts b.key = true) :
    s.before.length = r.cap ∧ ∃ tail key, s.before = b :: tail ∧
      s.after = tail ++ [⟨key, s.now, 1⟩] := by
  have hnone : lookup Bucket.key b.key s.after = none := by
    unfold Step.evicts at hev
    rw [Bool.and_eq_true, isNone_iff_eq_none] at hev
    exact hev.2
  have hlook := lookup_of_mem h.unique hb
  obtain ⟨m, a, ok, m'⟩ := s
  change Does r m a (ok, m') at hs
  change lookup Bucket.key b.key m' = none at hnone
  change lookup Bucket.key b.key m = some b at hlook
  change b ∈ m at hb
  show m.length = r.cap ∧ ∃ tail key, m = b :: tail ∧ m' = tail ++ [⟨key, a.now, 1⟩]
  generalize hout : (ok, m') = out at hs
  cases hs with
  | skips hkey =>
    obtain ⟨-, rfl⟩ := Prod.mk.inj hout
    rw [hlook] at hnone
    cases hnone
  | @begins key max now hkey hnew =>
    obtain ⟨-, rfl⟩ := Prod.mk.inj hout
    rcases trim_upsert h.size ⟨key, now, 1⟩ with hsame | ⟨-, hfull, hdrop⟩
    · rw [show trim r.cap (upsert Bucket.key ⟨key, now, 1⟩ m) = _ from hsame, lookup_upsert,
        hlook] at hnone
      split at hnone <;> cases hnone
    · rw [show trim r.cap (upsert Bucket.key ⟨key, now, 1⟩ m) = _ from hdrop] at hnone ⊢
      refine ⟨hfull, ?_⟩
      cases m with
      | nil => cases hb
      | cons c tail =>
        change lookup Bucket.key b.key (tail ++ [⟨key, now, 1⟩]) = none at hnone
        rcases mem_cons.mp hb with rfl | hb
        · exact ⟨tail, key, rfl, rfl⟩
        · exact absurd rfl (lookup_eq_none.mp hnone b (mem_append_left _ hb))
  | @counts key max now c hkey hc hin =>
    obtain ⟨-, rfl⟩ := Prod.mk.inj hout
    rw [lookup_upsert, hlook] at hnone
    split at hnone <;> cases hnone
  | cleans hm' hkept => cases hev

end Step.Lawful

/-! ## A run -/

/-- What comes after the steps `past`, which leave the map `m`. -/
inductive Run (r : Rules) : List Step → List Bucket → List Step → Prop
  | nil {past : List Step} {m : List Bucket} (sound : Sound r past m) : Run r past m []
  | cons {past rest : List Step} {s : Step} (sound : Sound r past s.before) (lawful : s.Lawful r)
      (later : ∀ x ∈ past, x.now ≤ s.now) (next : Run r (past ++ [s]) s.after rest) :
      Run r past s.before (s :: rest)

theorem run_steps {r : Rules} {as : List Action} (has : as.Pairwise (fun a b => a.now ≤ b.now))
    {past : List Step} {m : List Bucket} (h : Sound r past m)
    (hlater : ∀ x ∈ past, ∀ a ∈ as, x.now ≤ a.now) : Run r past m (steps r.act m as) := by
  induction as generalizing past m with
  | nil => exact .nil h
  | cons a as ih =>
    obtain ⟨ha, has⟩ := pairwise_cons.mp has
    have hnow : ∀ x ∈ past, x.now ≤ (step r.act m a).now :=
      fun x hx => hlater x hx a (mem_cons_self ..)
    refine Run.cons (s := step r.act m a) h (lawful_step r m a) hnow
      (ih has (h.concat (s := step r.act m a) (lawful_step r m a) hnow) ?_)
    intro x hx b hb
    rcases mem_append.mp hx with hx | hx
    · exact hlater x hx b (mem_cons_of_mem _ hb)
    · obtain rfl := mem_singleton.mp hx
      exact ha b hb

namespace Run

variable {r : Rules} {past done rest future : List Step} {s : Step} {m : List Bucket} {k : String}

theorem sound (h : Run r past m rest) : Sound r past m := by
  cases h with
  | nil sound => exact sound
  | cons sound => exact sound

theorem drop (h : Run r past m (done ++ rest)) : ∃ m', Run r (past ++ done) m' rest := by
  induction done generalizing past m with
  | nil => exact ⟨m, by simpa using h⟩
  | cons s done ih =>
    cases h with
    | cons sound lawful later next =>
      obtain ⟨m', h⟩ := ih next
      exact ⟨m', by simpa using h⟩

theorem later (h : Run r past m rest) : ∀ x ∈ past, ∀ y ∈ rest, x.now ≤ y.now := by
  induction h with
  | nil => simp
  | cons _ _ later _ ih =>
    intro x hx y hy
    rcases mem_cons.mp hy with rfl | hy
    · exact later x hx
    · exact ih x (mem_append_left _ hx) y hy

theorem inOrder (h : Run r past m rest) : rest.Pairwise (fun x y => x.now ≤ y.now) := by
  induction h with
  | nil => exact List.Pairwise.nil
  | cons _ _ _ next ih =>
    refine pairwise_cons.mpr ⟨fun y hy => ?_, ih⟩
    exact next.later _ (mem_append_right _ (mem_singleton.mpr rfl)) y hy

/-! ### One window -/

/-- How many more requests of the key its entry lets through. -/
@[grind =] def left (M : ℤ) (k : String) (m : List Bucket) : ℕ :=
  (lookup Bucket.key k m).elim 0 (fun b => (M - b.count).toNat)

theorem left_le (h : Sound r past m) (M : ℤ) : left M k m ≤ M.toNat := by
  unfold left
  cases hb : lookup Bucket.key k m with
  | none => exact Nat.zero_le _
  | some b =>
    have := h.counted b (mem_of_lookup hb).1
    simp only [elim_some]
    omega

/-- While no window of the key is started its entry counts the requests. -/
theorem countP_le (h : Run r past m (done ++ future)) (hc : r.counts k = true)
    (hM : AtMost r M k done) (hno : ∀ x ∈ done, x.begins r k = false) :
    done.countP (·.admits k) ≤ left M k m := by
  induction done generalizing past m with
  | nil => exact Nat.zero_le _
  | cons s done ih =>
    cases h with
    | cons sound lawful later next =>
      have hrest := ih next (fun x hx => hM x (mem_cons_of_mem _ hx))
        fun x hx => hno x (mem_cons_of_mem _ hx)
      rw [countP_cons]
      by_cases hk : s.asks k = true
      · rcases lawful.own sound.unique hk hc with ⟨hbeg, -, -⟩ | ⟨-, b, hb, hafter, hok⟩
        · rw [hno s (mem_cons_self ..)] at hbeg
          cases hbeg
        · have hallow := hM s (mem_cons_self ..) hk
          simp only [left, hafter, elim_some, Step.admits] at hrest
          simp only [left, hb, elim_some, Step.admits, hk, hok, Bool.true_and,
            decide_eq_true_eq]
          split <;> omega
      · have hk : s.asks k = false := by simpa using hk
        have hle : left M k s.after ≤ left M k s.before := by
          unfold left
          rcases lawful.other sound.unique hk with hafter | hafter <;> simp [hafter]
        simp only [Step.admits, hk, Bool.false_and, Bool.false_eq_true, if_false]
        simp only [Step.admits] at hrest
        omega

/-- At most the maximum is let through in a window. -/
theorem countP_window (h : Run r past m (s :: (during ++ future)))
    (hM : AtMost r M k (s :: during)) (hbeg : s.begins r k = true)
    (hno : ∀ x ∈ during, x.begins r k = false) : (s :: during).countP (·.admits k) ≤ M.toNat := by
  cases h with
  | cons sound lawful later next =>
    obtain ⟨hk, hc, -⟩ := begins_iff.mp hbeg
    have hrest := next.countP_le hc (fun x hx => hM x (mem_cons_of_mem _ hx)) hno
    have hallow := hM s (mem_cons_self ..) hk
    rw [countP_cons]
    rcases lawful.own sound.unique hk hc with ⟨-, hok, hafter⟩ | ⟨hnot, -⟩
    · simp only [Step.admits, hk, hok, Bool.true_and, decide_eq_true_eq] at hrest ⊢
      rcases hafter with hafter | hafter
      · simp only [left, hafter, elim_some] at hrest
        split <;> omega
      · simp only [left, hafter, elim_none] at hrest
        split <;> omega
    · rw [hbeg] at hnot
      cases hnot

/-! ### An interval of the length of a window -/

/-- No window is started while the one of the key is not over, unless it is evicted. -/
theorem not_begins (h : Run r past m (done ++ future)) (hb : lookup Bucket.key k m = some b)
    (hin : ∀ x ∈ done, x.now ≤ b.start + r.windowMs) (hev : ∀ x ∈ done, x.evicts k = false) :
    ∀ x ∈ done, x.begins r k = false := by
  induction done generalizing past m b with
  | nil => simp
  | cons s done ih =>
    cases h with
    | cons sound lawful later next =>
      have hnow := hin s (mem_cons_self ..)
      have hstart := sound.start_le later b (mem_of_lookup hb).1
      intro x hx
      rcases mem_cons.mp hx with rfl | hx
      · rw [Bool.eq_false_iff]
        intro hbeg
        have := (begins_iff.mp hbeg).2.2 b hb
        omega
      · rcases lawful.kept sound.unique hb hstart hnow with ⟨o, ho, hos⟩ | hevicted
        · refine ih next ho (fun y hy => ?_) (fun y hy => hev y (mem_cons_of_mem _ hy)) x hx
          rw [hos]
          exact hin y (mem_cons_of_mem _ hy)
        · rw [hev s (mem_cons_self ..)] at hevicted
          cases hevicted

/-- At most twice the maximum is let through between two times that are a window apart. -/
theorem countP_between {t : ℤ} (h : Run r past m (during ++ future)) (hc : r.counts k = true)
    (hM : AtMost r M k during) (hin : ∀ x ∈ during, t ≤ x.now ∧ x.now ≤ t + r.windowMs)
    (hev : ∀ x ∈ during, x.evicts k = false) : during.countP (·.admits k) ≤ 2 * M.toNat := by
  by_cases hno : ∀ x ∈ during, x.begins r k = false
  · have := (h.countP_le hc hM hno).trans (left_le h.sound M)
    omega
  · -- the first window that is started in the interval is not over at its end
    obtain ⟨first, s, last, rfl, hs, hfirst⟩ : ∃ first s last, during = first ++ s :: last ∧
        s.begins r k = true ∧ ∀ x ∈ first, x.begins r k = false := by
      have hsome : (during.find? (·.begins r k)).isSome = true := by
        rw [find?_isSome]
        simpa using hno
      obtain ⟨s, hs⟩ := isSome_iff_exists.mp hsome
      obtain ⟨hbeg, first, last, e, hfirst⟩ := find?_eq_some_iff_append.mp hs
      exact ⟨first, s, last, e, hbeg, fun x hx => by simpa using hfirst x hx⟩
    have hsin := hin s (by simp)
    have hlastmem : ∀ x ∈ last, x ∈ first ++ s :: last := fun x hx => by simp [hx]
    rw [append_assoc] at h
    have hbefore := (h.countP_le hc (fun x hx => hM x (mem_append_left _ hx)) hfirst).trans
      (left_le h.sound M)
    obtain ⟨m', hrun⟩ := h.drop
    have hlast : ∀ x ∈ last, x.begins r k = false := by
      cases hrun with
      | cons sound lawful later next =>
        obtain ⟨hk, -⟩ := begins_iff.mp hs
        rcases lawful.own sound.unique hk hc with ⟨-, -, hafter | hafter⟩ | ⟨hnot, -⟩
        · refine next.not_begins hafter (fun x hx => ?_) fun x hx => hev x (hlastmem x hx)
          show x.now ≤ s.now + r.windowMs
          have := (hin x (hlastmem x hx)).2
          omega
        · have hevs := hev s (by simp)
          obtain ⟨b, a, ok, b'⟩ := s
          cases a with
          | consume key max now =>
            simp only at hafter
            simp [Step.evicts, hk, hafter] at hevs
          | cleanUp now => cases hk
        · rw [hs] at hnot
          cases hnot
    have hafter := hrun.countP_window (fun x hx => hM x (mem_append_right _ hx)) hs hlast
    rw [countP_append]
    omega

end Run

/-! ## What the limiters are for -/

/-- Requests and clean-ups in the order of time. -/
structure Calls where
  actions : List Action
  inOrder : actions.Pairwise (fun a b => a.now ≤ b.now)

/-- The last window of the key was not started in the place of the one before. -/
def NotRestarted (r : Rules) (past : List Step) (k : String) : Prop := restarted r past k = false

/-- Such a window leaves a full map only, of which no other is older. -/
theorem Run.started_first {r : Rules} {past future : List Step} {s : Step} {m : List Bucket}
    (h : Run r past m (s :: future)) (hb : b ∈ s.before) (hev : s.evicts b.key = true)
    (hD : NotRestarted r past b.key) :
    s.after.length = r.cap ∧ ∀ o ∈ s.after, b.start ≤ o.start := by
  cases h with
  | cons sound lawful later next =>
    obtain ⟨hfull, tail, key, hbefore, hafter⟩ := lawful.evicted sound hb hev
    have hordered := sound.ordered
    rw [hbefore] at hordered hfull
    refine ⟨by simpa [hafter] using hfull, fun o ho => ?_⟩
    rw [hafter] at ho
    rcases mem_append.mp ho with ho | ho
    · exact (pairwise_cons.mp hordered).1 o ho hD
    · obtain rfl := mem_singleton.mp ho
      exact sound.start_le later b hb

/-- A window that is not over is forgotten by an eviction only. -/
theorem Run.lost {r : Rules} {past future : List Step} {s : Step} {m : List Bucket}
    (h : Run r past m (s :: future)) (hb : b ∈ s.before) (hin : s.now ≤ b.start + r.windowMs)
    (hgone : ∀ o ∈ s.after, o.key = b.key → o.start ≠ b.start) : s.evicts b.key = true := by
  cases h with
  | cons sound lawful later next =>
    have hlook := lookup_of_mem sound.unique hb
    rcases lawful.kept sound.unique hlook (sound.start_le later b hb) hin with ⟨o, ho, hos⟩ | hev
    · obtain ⟨hmem, hkey⟩ := mem_of_lookup ho
      exact absurd hos (hgone o hmem hkey)
    · exact hev

theorem Run.others {r : Rules} {past future : List Step} {s : Step} {m : List Bucket}
    (h : Run r past m (s :: future)) (hb : b ∈ s.before) (hev : s.evicts b.key = true)
    (hD : NotRestarted r past b.key) :
    ∃ keys : List String, keys.Nodup ∧ b.key ∉ keys ∧ r.cap ≤ keys.length ∧
      ∀ k ∈ keys, ∃ x ∈ past ++ [s], x.begins r k = true ∧ b.start ≤ x.now := by
  obtain ⟨hlen, hstarts⟩ := h.started_first hb hev hD
  cases h with
  | cons sound lawful later next =>
    refine ⟨s.after.map Bucket.key, next.sound.unique, ?_, by rw [length_map, hlen], ?_⟩
    · intro hmem
      obtain ⟨o, ho, hok⟩ := List.mem_map.mp hmem
      unfold Step.evicts at hev
      rw [Bool.and_eq_true, isNone_iff_eq_none] at hev
      exact lookup_eq_none.mp hev.2 o ho hok
    · intro k hk
      obtain ⟨o, ho, rfl⟩ := List.mem_map.mp hk
      obtain ⟨x, hx, hnow⟩ := next.sound.begun o ho
      obtain ⟨hmem, hbeg⟩ := mem_of_lastBegin hx
      exact ⟨x, hmem, hbeg, hnow ▸ hstarts o ho⟩

/-- Over any calls, each of the limiters lets through at most the maximum in a window and twice
the maximum in an interval of its length, and forgets a window that was not started in the place
of another only for younger ones of as many other keys as the map holds. -/
theorem limiter_forgets (config : SocketConfig) (l : Limiter) (calls : Calls) :
    Forgets (l.rules config) (NotRestarted (l.rules config)) (l.rules config).cap
      (steps (l.act config) [] calls.actions) := by
  rw [Limiter.act_eq]
  have hrun : Run (l.rules config) [] [] (steps (l.rules config).act [] calls.actions) :=
    run_steps calls.inOrder sound_nil (by simp)
  generalize l.rules config = r at hrun ⊢
  generalize steps r.act [] calls.actions = all at hrun ⊢
  refine ⟨?_, ?_, ?_, ?_⟩
  · rintro k M past s during future rfl hM hbeg hno
    obtain ⟨m, h⟩ := hrun.drop
    exact h.countP_window hM hbeg hno
  · intro k M t hc hM hev
    obtain ⟨before, rest, rfl, hbefore, hrest⟩ := History.exists_parted hrun.inOrder t
    obtain ⟨m, h⟩ := hrun.drop
    obtain ⟨during, after, rfl, hduring, hafter⟩ :=
      History.exists_parted h.inOrder (t + r.windowMs + 1)
    have hin : ∀ x ∈ during, t ≤ x.now ∧ x.now ≤ t + r.windowMs := fun x hx =>
      ⟨hrest x (List.mem_append_left _ hx), by have := hduring x hx; omega⟩
    have hmem : ∀ x ∈ during, x ∈ before ++ (during ++ after) := fun x hx => by simp [hx]
    have hmid := h.countP_between hc (fun x hx => hM x (hmem x hx)) hin
      fun x hx => hev x (hmem x hx) (hin x hx).1 (hin x hx).2
    have hzero : ∀ l : List Step, (∀ x ∈ l, x.now < t ∨ t + r.windowMs < x.now) →
        l.countP (fun s => s.admits k && decide (t ≤ s.now) &&
          decide (s.now ≤ t + r.windowMs)) = 0 := by
      intro l hl
      rw [List.countP_eq_zero]
      intro x hx
      have := hl x hx
      simp only [Bool.and_eq_true, decide_eq_true_eq, not_and]
      omega
    rw [List.countP_append, List.countP_append, hzero before fun x hx => .inl (hbefore x hx),
      hzero after fun x hx => .inr (by have := hafter x hx; omega), Nat.zero_add, Nat.add_zero]
    refine (List.countP_mono_left fun x _ hx => ?_).trans hmid
    simp only [Bool.and_eq_true] at hx
    exact hx.1.1
  · rintro past s future rfl b hb hev hD
    obtain ⟨m, h⟩ := hrun.drop
    exact (h.started_first hb hev hD).2
  · rintro past s future rfl b hb hin hgone
    obtain ⟨m, h⟩ := hrun.drop
    have hev := h.lost hb hin hgone
    exact ⟨hev, fun hD => h.others hb hev hD⟩

/-- One event a key in 100 ms, and room for two keys. -/
def twoKeys : SocketConfig :=
  { CLUSTER_SIZE := 1, RATE_LIMIT_MAX := 1, RATE_LIMIT_WINDOW := 100, AUTH_RATE_LIMIT_MAX := 1
    AUTH_RATE_LIMIT_WINDOW := 100, SOCKET_CONNECT_RATE_LIMIT := 1, SOCKET_CONNECT_WINDOW := 100
    MAX_RATE_LIMIT_ENTRIES := 2, SOCKET_EVENT_WINDOW := 100 }

/-- The window of `a` is started again in its place before `c` comes. -/
def again : Calls :=
  ⟨[.consume "a" 1 0, .consume "b" 1 1, .consume "a" 1 105, .consume "c" 1 106], by decide⟩

/-- Two keys come after `a`. -/
def inTurn : Calls := ⟨[.consume "a" 1 0, .consume "b" 1 1, .consume "c" 1 2], by decide⟩

/-- A window that is started again leaves before an older one, and as many other keys as the map
holds are enough for any to leave. -/
theorem younger_leaves :
    ¬ Forgets (Limiter.socket.rules twoKeys) (fun _ _ => True) 3
        (steps (Limiter.socket.act twoKeys) [] again.actions) ∧
      ¬ Forgets (Limiter.socket.rules twoKeys) (NotRestarted (Limiter.socket.rules twoKeys)) 3
        (steps (Limiter.socket.act twoKeys) [] inTurn.actions) := by
  constructor
  · intro h
    have hle := h.startedFirst
      [⟨[], .consume "a" 1 0, true, [⟨"a", 0, 1⟩]⟩,
        ⟨[⟨"a", 0, 1⟩], .consume "b" 1 1, true, [⟨"a", 0, 1⟩, ⟨"b", 1, 1⟩]⟩,
        ⟨[⟨"a", 0, 1⟩, ⟨"b", 1, 1⟩], .consume "a" 1 105, true, [⟨"a", 105, 1⟩, ⟨"b", 1, 1⟩]⟩]
      ⟨[⟨"a", 105, 1⟩, ⟨"b", 1, 1⟩], .consume "c" 1 106, true, [⟨"b", 1, 1⟩, ⟨"c", 106, 1⟩]⟩ []
      (by decide) ⟨"a", 105, 1⟩ (by decide) (by decide) trivial ⟨"b", 1, 1⟩ (by decide)
    exact absurd hle (by decide)
  · intro h
    obtain ⟨-, hothers⟩ := h.lost
      [⟨[], .consume "a" 1 0, true, [⟨"a", 0, 1⟩]⟩,
        ⟨[⟨"a", 0, 1⟩], .consume "b" 1 1, true, [⟨"a", 0, 1⟩, ⟨"b", 1, 1⟩]⟩]
      ⟨[⟨"a", 0, 1⟩, ⟨"b", 1, 1⟩], .consume "c" 1 2, true, [⟨"b", 1, 1⟩, ⟨"c", 2, 1⟩]⟩ []
      (by decide) ⟨"a", 0, 1⟩ (by decide) (by decide) (by decide)
    obtain ⟨keys, hnodup, hnot, hlen, hkeys⟩ := hothers (by unfold NotRestarted; decide)
    -- only `b` and `c` are left to have started a window
    have hsub : keys ⊆ ["b", "c"] := by
      intro k hk
      obtain ⟨x, hx, hbeg, -⟩ := hkeys k hk
      have hasks := (begins_iff.mp hbeg).1
      simp only [List.cons_append, List.nil_append, List.mem_cons, List.not_mem_nil, or_false] at hx
      rcases hx with rfl | rfl | rfl
      · obtain rfl : "a" = k := of_decide_eq_true hasks
        exact absurd hk hnot
      · obtain rfl : "b" = k := of_decide_eq_true hasks
        simp
      · obtain rfl : "c" = k := of_decide_eq_true hasks
        simp
    have := (hnodup.subperm hsub).length_le
    simp only [List.length_cons, List.length_nil] at this
    omega

end FestivalPlanner.MemoryLimiters
