import FestivalPlanner.Lib.Js
import FestivalPlanner.Lib.Keyed
import Mathlib.Algebra.Order.Ring.Int

/-!
# Rate limits over Redis

Requests are counted in Redis, by a pipeline of `INCR` and `PTTL`.  Where Redis gives no count
the limiters are to count in the memory of the process.

* `Exec`, `Redis` — what a pipeline answers, and whether the expiry can be set;
* `check`, `redisRateCheck` — the two functions that read the answer (`lib/redis.ts`);
* `rateLimit`, `createAuthRateLimiter`, `consumeSocketConnectRateLimitAsync` — the limiters
  that call them (`lib/rate-limiting.ts`);
* `countedInMemory_of_fallback` — a limiter that is told to fall back counts in memory;
* `limiters_agree_iff` — the two functions fall back exactly on the answers without a valid
  count, when no answer of two tuples is taken for a count that it is not.
-/

namespace FestivalPlanner.RateLimits

open Js Keyed

/-! ## Answers of the pipeline -/

/-- A value of an answer: a number, or another value with what it is as a number. -/
inductive Value where
  | number (n : ℤ)
  | other (asNumber : Number)
  deriving DecidableEq

def Value.asNumber : Value → Number
  | .number n => some n
  | .other x => x

/-- `typeof value === 'number'` -/
def Value.isNumber : Value → Bool
  | .number _ => true
  | .other _ => false

/-- The answer of one command: `[err, value]`. -/
structure Tuple where
  err : Bool
  value : Value
  deriving DecidableEq

/-- What `pipeline.exec()` does; the answer may be `null`. -/
inductive Exec where
  | rejects
  | resolves (results : Option (List Tuple))
  deriving DecidableEq

/-- One exchange with Redis. -/
structure Redis where
  exec : Exec
  /-- would `pexpire` reject? -/
  pexpireRejects : Bool
  deriving DecidableEq

/-- The count of an answer that has one: no command failed, and it is a number. -/
def validCount : Exec → Number
  | .resolves (some (⟨false, .number n⟩ :: ⟨false, _⟩ :: _)) => some n
  | _ => none

/-! ## The two checks -/

structure CheckResult where
  limited : Bool
  remaining : Number
  resetMs : Number
  fallback : Bool
  deriving DecidableEq

/-- `count === 1 || ttl < 0` -/
def expires (count ttl : Value) : Bool :=
  count == .number 1 || ttl.asNumber.any (fun t => decide (t < 0))

/-- The time to live after the expiry of a new key is set; `none` when that throws. -/
def setExpiry (redis : Redis) (windowMs : ℤ) (count ttl : Value) : Option Value :=
  if expires count ttl then
    if redis.pexpireRejects then none else some (.number windowMs)
  else some ttl

/-- What both checks make of a count and a time to live. -/
def counted (max windowMs : ℤ) (count ttl : Value) : CheckResult :=
  { limited := count.asNumber.any (fun c => decide (max < c))
    remaining := count.asNumber.map (fun c => Max.max 0 (max - c))
    resetMs := if ttl.asNumber.any (fun t => decide (0 < t)) then ttl.asNumber else some windowMs
    fallback := false }

def refused (max windowMs : ℤ) : CheckResult :=
  { limited := false, remaining := some max, resetMs := some windowMs, fallback := true }

/-- What `check` reads of an answer; `none` when it throws. -/
@[grind =] def readAnswer (redis : Redis) (maxRequests windowMs : ℤ) : Option CheckResult :=
  match redis.exec with
  | .rejects => none
  | .resolves results => do
      let results ← results
      let first ← results[0]?
      let second ← results[1]?
      let ttl ← setExpiry redis windowMs first.value second.value
      return counted maxRequests windowMs first.value ttl

/-- `check` of `createRedisRateLimiter`. -/
@[grind =] def check (redis : Redis) (maxRequests windowMs : ℤ) : CheckResult :=
  (readAnswer redis maxRequests windowMs).getD (refused maxRequests windowMs)

/-- What `redisRateCheck` reads of an answer; `none` when it throws. -/
def readGuarded (redis : Redis) (max windowMs : ℤ) : Option CheckResult :=
  match redis.exec with
  | .rejects => none
  | .resolves none => some (refused max windowMs)
  | .resolves (some results) =>
      if (results[0]?.any (·.err)) = true ∨ (results[1]?.any (·.err)) = true ∨
          (results[0]?.any (·.value.isNumber)) = false then
        some (refused max windowMs)
      else do
        let first ← results[0]?
        let second ← results[1]?
        let ttl ← setExpiry redis windowMs first.value second.value
        return counted max windowMs first.value ttl

/-- `redisRateCheck`, without a connection too. -/
def redisRateCheck (redis : Option Redis) (max windowMs : ℤ) : CheckResult :=
  match redis with
  | none => refused max windowMs
  | some redis => (readGuarded redis max windowMs).getD (refused max windowMs)

/-! ## Counting in memory -/

structure Config where
  CLUSTER_SIZE : ℤ
  RATE_LIMIT_MAX : ℤ
  RATE_LIMIT_WINDOW : ℤ
  AUTH_RATE_LIMIT_MAX : ℤ
  AUTH_RATE_LIMIT_WINDOW : ℤ
  SOCKET_CONNECT_RATE_LIMIT : ℤ
  SOCKET_CONNECT_WINDOW : ℤ
  MAX_RATE_LIMIT_ENTRIES : ℕ

/-- An entry of a map of the process; `start` is `windowStart` for sockets. -/
structure Bucket where
  key : String
  start : ℤ
  count : ℤ
  deriving DecidableEq

/-- The map of one limiter, and how often it had to be used. -/
structure Memory where
  buckets : List Bucket
  fallbacks : ℕ
  deriving DecidableEq

/-- `Math.ceil(x / n)` -/
def ceilDiv (x n : ℤ) : ℤ := -(-x / n)

def fallbackMax (config : Config) (max : ℤ) : ℤ := Max.max 1 (ceilDiv max config.CLUSTER_SIZE)

/-- Drops the oldest entries over the limit. -/
def enforceRateLimitMapCap (config : Config) (buckets : List Bucket) : List Bucket :=
  buckets.drop (buckets.length - config.MAX_RATE_LIMIT_ENTRIES)

def recordFallback (m : Memory) : Memory := { m with fallbacks := m.fallbacks + 1 }

/-- Counts a request in the entry of its key, or in a new one when that is too old. -/
def countRequest (config : Config) (windowMs now : ℤ) (key : String) (m : Memory) :
    Bucket × Memory :=
  let fresh : Bucket := { key := key, start := now, count := 1 }
  let renewed := enforceRateLimitMapCap config (upsert Bucket.key fresh m.buckets)
  match lookup Bucket.key key m.buckets with
  | none => (fresh, { m with buckets := renewed })
  | some entry =>
      if windowMs < now - entry.start then (fresh, { m with buckets := renewed })
      else
        let entry := { entry with count := entry.count + 1 }
        (entry, { m with buckets := upsert Bucket.key entry m.buckets })

/-! ## The limiters -/

/-- What the middleware answers: it goes on, or refuses with a `Retry-After` in seconds. -/
inductive Outcome where
  | next
  | refused (retryAfter : Number)
  deriving DecidableEq

/-- What the middleware knows of a request. -/
structure Verdict where
  limited : Bool
  remaining : Number
  retryAfter : Number
  resetHeader : Number
  limit : ℤ
  fallback : Bool
  deriving DecidableEq

/-- The two tiers of `rateLimit`. -/
inductive Tier where
  | perScope
  | global
  deriving DecidableEq

/-- A verdict by Redis. -/
def byRedis (max now : ℤ) (r : CheckResult) : Verdict :=
  { limited := r.limited
    remaining := r.remaining
    retryAfter := r.resetMs.map (ceilDiv · 1000)
    resetHeader := r.resetMs.map (fun ms => ceilDiv (now + ms) 1000)
    limit := max
    fallback := false }

/-- A verdict by the map of the process. -/
def byMemory (config : Config) (max windowMs now : ℤ) (key : String) (m : Memory) :
    Verdict × Memory :=
  let effectiveMax := fallbackMax config max
  let (entry, m) := countRequest config windowMs now key m
  let resetAt := entry.start + windowMs
  ({ limited := decide (effectiveMax < entry.count)
     remaining := some (Max.max 0 (effectiveMax - entry.count))
     retryAfter := some (ceilDiv (resetAt - now) 1000)
     resetHeader := some (ceilDiv resetAt 1000)
     limit := effectiveMax
     fallback := true }, m)

/-- The check that a tier makes; the global one has a limit of its own. -/
def tierCheck (config : Config) (tier : Tier) (redis : Redis) (max windowMs : ℤ) : CheckResult :=
  match tier with
  | .perScope => redisRateCheck (some redis) max windowMs
  | .global => check redis config.RATE_LIMIT_MAX config.RATE_LIMIT_WINDOW

def tryRedisRateCheck (config : Config) (tier : Tier) (redis : Option Redis)
    (max windowMs now : ℤ) (key : String) (m : Memory) : Verdict × Memory :=
  match redis with
  | none => byMemory config max windowMs now key m
  | some redis =>
      let result := tierCheck config tier redis max windowMs
      if result.fallback then byMemory config max windowMs now key (recordFallback m)
      else (byRedis max now result, m)

/-- Who a request is counted for. -/
structure Request where
  ip : String
  userId : Option String
  /-- the session token, when it has one of at least sixteen characters -/
  token : Option String

def rateLimitKey (hashSessionToken : String → String) (req : Request) : String :=
  match req.userId with
  | some userId => "user:" ++ userId
  | none =>
      match req.token with
      | some token => "tok:" ++ hashSessionToken token
      | none => req.ip

/-- The middleware of a scope, or of the whole interface when the scope is `""`. -/
def rateLimit (config : Config) (hashSessionToken : String → String) (redis : Option Redis)
    (max : ℤ) (scope : String) (now : ℤ) (req : Request) (m : Memory) :
    Verdict × Outcome × Memory :=
  let key := rateLimitKey hashSessionToken req
  let tier := if scope = "" then Tier.global else .perScope
  let (result, m) := tryRedisRateCheck config tier redis max config.RATE_LIMIT_WINDOW now
    (if scope = "" then key else scope ++ ":" ++ key) m
  (result, if result.limited then .refused result.retryAfter else .next, m)

/-- Counts an attempt to authenticate in the map of the process. -/
def authByMemory (config : Config) (now : ℤ) (ip : String) (m : Memory) : Outcome × Memory :=
  let effectiveMax := fallbackMax config config.AUTH_RATE_LIMIT_MAX
  let (entry, m) := countRequest config config.AUTH_RATE_LIMIT_WINDOW now ip m
  if effectiveMax < entry.count then
    let retryAfter := ceilDiv (entry.start + config.AUTH_RATE_LIMIT_WINDOW - now) 1000
    (.refused (some (Max.max 1 retryAfter)), m)
  else (.next, m)

def createAuthRateLimiter (config : Config) (redisLimiter : Option Redis) (now : ℤ)
    (ip : String) (m : Memory) : Outcome × Memory :=
  match redisLimiter with
  | none => authByMemory config now ip m
  | some redis =>
      let result := check redis config.AUTH_RATE_LIMIT_MAX config.AUTH_RATE_LIMIT_WINDOW
      if result.fallback then authByMemory config now ip (recordFallback m)
      else if result.limited then
        (.refused (result.resetMs.map fun ms => Max.max 1 (ceilDiv ms 1000)), m)
      else (.next, m)

/-- May a socket connect? Counted in the map of the process. -/
def consumeSocketConnectRateLimitLocal (config : Config) (now : ℤ) (ip : String) (m : Memory) :
    Bool × Memory :=
  let (entry, m) := countRequest config config.SOCKET_CONNECT_WINDOW now ip m
  (decide (entry.count ≤ fallbackMax config config.SOCKET_CONNECT_RATE_LIMIT), m)

def consumeSocketConnectRateLimitAsync (config : Config) (redisLimiter : Option Redis) (now : ℤ)
    (ip : String) (m : Memory) : Bool × Memory :=
  match redisLimiter with
  | none => consumeSocketConnectRateLimitLocal config now ip m
  | some redis =>
      let result := check redis config.SOCKET_CONNECT_RATE_LIMIT config.SOCKET_CONNECT_WINDOW
      if result.fallback then consumeSocketConnectRateLimitLocal config now ip (recordFallback m)
      else (!result.limited, m)

/-! ## Falling back -/

/-- The limiters count a request in memory and record that they had to. -/
structure CountedInMemory (redis : Redis) : Prop where
  middleware : ∀ config tier max windowMs now key m,
    tryRedisRateCheck config tier (some redis) max windowMs now key m =
      byMemory config max windowMs now key (recordFallback m)
  auth : ∀ config now ip m,
    createAuthRateLimiter config (some redis) now ip m =
      authByMemory config now ip (recordFallback m)
  socket : ∀ config now ip m,
    consumeSocketConnectRateLimitAsync config (some redis) now ip m =
      consumeSocketConnectRateLimitLocal config now ip (recordFallback m)

/-- Both checks fall back exactly where there is no valid count, and there the limiters count
in memory. -/
structure FallsBackRightly (redis : Redis) : Prop where
  check_iff : ∀ maxRequests windowMs,
    (check redis maxRequests windowMs).fallback = true ↔ validCount redis.exec = none
  redisRateCheck_iff : ∀ max windowMs,
    (redisRateCheck (some redis) max windowMs).fallback = true ↔ validCount redis.exec = none
  countedInMemory : validCount redis.exec = none → CountedInMemory redis

/-- Two tuples without a valid count are given up because the expiry is rejected, and two
tuples with one are not. -/
def AnswerHolds (redis : Redis) : Prop :=
  match redis.exec with
  | .resolves (some (first :: second :: _)) =>
      (expires first.value second.value = true ∧ redis.pexpireRejects = true) ↔
        validCount redis.exec = none
  | _ => True

/-! ## What the checks say -/

variable {redis : Redis} {first second : Tuple} {rest : List Tuple}

/-- An answer without two tuples makes both checks fall back. -/
theorem fallback_of_short
    (h : ∀ first second rest, redis.exec ≠ .resolves (some (first :: second :: rest)))
    (max windowMs : ℤ) : (check redis max windowMs).fallback = true ∧
      (redisRateCheck (some redis) max windowMs).fallback = true := by
  obtain ⟨exec, rejects⟩ := redis
  unfold check redisRateCheck readAnswer readGuarded
  rcases exec with _ | (_ | (_ | ⟨first, (_ | ⟨second, rest⟩)⟩))
  · exact ⟨rfl, rfl⟩
  · exact ⟨rfl, rfl⟩
  · exact ⟨rfl, rfl⟩
  · refine ⟨rfl, ?_⟩
    simp only
    split <;> rfl
  · exact absurd rfl (h first second rest)

theorem validCount_of_short {exec : Exec}
    (h : ∀ first second rest, exec ≠ .resolves (some (first :: second :: rest))) :
    validCount exec = none := by
  unfold validCount
  split
  · exact absurd rfl (h _ _ _)
  · rfl

/-- On two tuples `check` falls back only where the expiry is rejected. -/
theorem check_fallback_iff (h : redis.exec = .resolves (some (first :: second :: rest)))
    (max windowMs : ℤ) :
    (check redis max windowMs).fallback = true ↔
      expires first.value second.value = true ∧ redis.pexpireRejects = true := by
  unfold check readAnswer setExpiry
  rw [h]
  by_cases hexpires : expires first.value second.value = true
  · by_cases hrejects : redis.pexpireRejects = true
    · simp [hexpires, hrejects, refused]
    · simp [hexpires, hrejects, counted]
  · simp [hexpires, counted]

/-- The guard of `redisRateCheck` lets exactly the valid counts of two tuples pass. -/
theorem guard_iff (first second : Tuple) (rest : List Tuple) :
    (first.err = true ∨ second.err = true ∨ first.value.isNumber = false) ↔
      validCount (.resolves (some (first :: second :: rest))) = none := by
  obtain ⟨e1, v1⟩ := first
  obtain ⟨e2, v2⟩ := second
  cases e1 <;> cases e2 <;> cases v1 <;> simp [validCount, Value.isNumber]

/-- On two tuples `redisRateCheck` falls back where there is no valid count, too. -/
theorem redisRateCheck_fallback_iff (h : redis.exec = .resolves (some (first :: second :: rest)))
    (max windowMs : ℤ) :
    (redisRateCheck (some redis) max windowMs).fallback = true ↔
      validCount redis.exec = none ∨
        (expires first.value second.value = true ∧ redis.pexpireRejects = true) := by
  rw [h, ← guard_iff]
  unfold redisRateCheck
  simp only [readGuarded, h, List.getElem?_cons_zero, List.getElem?_cons_succ, Option.any_some]
  by_cases hguard : first.err = true ∨ second.err = true ∨ first.value.isNumber = false
  · rw [if_pos hguard]
    exact iff_of_true rfl (.inl hguard)
  · rw [if_neg hguard, or_iff_right hguard]
    have hread := check_fallback_iff h max windowMs
    unfold check readAnswer at hread
    rw [h] at hread
    exact hread

/-! ## The limiters in memory -/

/-- A limiter that is told to fall back counts the request in memory. -/
theorem countedInMemory_of_fallback
    (hcheck : ∀ max windowMs, (check redis max windowMs).fallback = true)
    (hguarded : ∀ max windowMs, (redisRateCheck (some redis) max windowMs).fallback = true) :
    CountedInMemory redis where
  middleware := by
    intro config tier max windowMs now key m
    unfold tryRedisRateCheck
    cases tier with
    | perScope => exact if_pos (hguarded _ _)
    | global => exact if_pos (hcheck _ _)
  auth := by
    intro config now ip m
    exact if_pos (hcheck _ _)
  socket := by
    intro config now ip m
    exact if_pos (hcheck _ _)

/-- **An answer without a count.**  Both checks fall back exactly where Redis gives no valid
count, so that the limiters count in memory there, if and only if two tuples without a valid
count are given up because the expiry is rejected, and two tuples with one are not. -/
theorem limiters_agree_iff (redis : Redis) : FallsBackRightly redis ↔ AnswerHolds redis := by
  by_cases hshort : ∃ first second rest, redis.exec = .resolves (some (first :: second :: rest))
  · obtain ⟨first, second, rest, hexec⟩ := hshort
    have hholds : AnswerHolds redis ↔
        ((expires first.value second.value = true ∧ redis.pexpireRejects = true) ↔
          validCount redis.exec = none) := by
      unfold AnswerHolds
      rw [hexec]
    rw [hholds]
    constructor
    · intro h
      rw [← check_fallback_iff hexec 0 0]
      exact h.check_iff 0 0
    · intro h
      have hcheck : ∀ max windowMs,
          (check redis max windowMs).fallback = true ↔ validCount redis.exec = none :=
        fun max windowMs => (check_fallback_iff hexec max windowMs).trans h
      have hguarded : ∀ max windowMs, (redisRateCheck (some redis) max windowMs).fallback = true ↔
          validCount redis.exec = none := by
        intro max windowMs
        rw [redisRateCheck_fallback_iff hexec, h, or_self]
      exact ⟨hcheck, hguarded, fun hnone => countedInMemory_of_fallback
        (fun max windowMs => (hcheck max windowMs).mpr hnone)
        (fun max windowMs => (hguarded max windowMs).mpr hnone)⟩
  · have hne : ∀ first second rest, redis.exec ≠ .resolves (some (first :: second :: rest)) :=
      fun first second rest h => hshort ⟨first, second, rest, h⟩
    have hnone := validCount_of_short hne
    have hcheck := fun max windowMs => (fallback_of_short hne max windowMs).1
    have hguarded := fun max windowMs => (fallback_of_short hne max windowMs).2
    refine iff_of_true ⟨fun max windowMs => iff_of_true (hcheck max windowMs) hnone,
      fun max windowMs => iff_of_true (hguarded max windowMs) hnone,
      fun _ => countedInMemory_of_fallback hcheck hguarded⟩ ?_
    unfold AnswerHolds
    split
    · rename_i first second rest hexec
      exact absurd hexec (hne first second rest)
    · trivial

/-- A connection that is down: the pipeline resolves, and each of its commands failed. -/
def downRedis : Redis :=
  { exec := .resolves (some [⟨true, .other none⟩, ⟨true, .other none⟩]), pexpireRejects := false }

/-- There the scoped limiter counts in memory, and an attempt to authenticate is admitted
without being counted. -/
theorem downRedis_admitted :
    (redisRateCheck (some downRedis) 10 60000).fallback = true ∧
    (check downRedis 10 60000).fallback = false ∧ (check downRedis 10 60000).limited = false ∧
    (∀ config now ip m, createAuthRateLimiter config (some downRedis) now ip m = (.next, m)) ∧
    ¬ FallsBackRightly downRedis := by
  refine ⟨by decide, by decide, by decide, fun config now ip m => rfl, ?_⟩
  intro h
  exact absurd (h.check_iff 10 60000) (by decide)

end FestivalPlanner.RateLimits
