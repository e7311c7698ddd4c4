import FestivalPlanner.Server.Idempotency

/-!
# One handler a key

What the comment of `createIdempotencyMiddleware` promises: a mutation is not
executed twice, neither at the same time nor again while its response is cached.

The reservation that carries the promise can leave the cache while its handler still
executes: when the client disconnects, when the sweep finds it older than the TTL,
when a full cache drops its oldest slot.  And a handler that ends without a JSON body
lets every waiter execute, not one (`two_handlers_after_close`).

* `OneHandler` — the promise;
* `KeepsSlots` — the condition on a step: no slot that is still needed leaves the cache;
* `SlotInv`, `TimeInv` — the invariants, on the reservations and on the responses;
* `idempotency_oneHandler` — under that condition the promise is kept, for any number
  of requests in any order.
-/

namespace FestivalPlanner.Idempotency

open List Option Keyed

variable {π : Type*}

/-! ## The promise -/

/-- The time of an event that completes this key. -/
def Event.completedAt? (key : String) : Event → Option ℤ
  | completed _ key' _ ts => if key' = key then some ts else none
  | started _ _ _ => none

/-- A handler starts only when no response to its key is younger than the TTL. -/
def StartsFresh (ttl : ℤ) (past : List Event) : Event → Prop
  | .started _ key now => ∀ ev ∈ past, ∀ ts ∈ ev.completedAt? key, ttl < now - ts
  | .completed _ _ _ _ => True

/-- At most one handler a key executes, and none executed again within the TTL of a
response. -/
structure OneHandler (ttl : ℤ) (s : State π) : Prop where
  one : (s.calls.filterMap Call.executingKey).Nodup
  fresh : History.Along (StartsFresh ttl) s.log

/-- The oldest slot of a full cache may go: it is the one about to be written, or a
response older than the TTL. -/
def MayEvict (ttl now : ℤ) (c : Call π) (slot : Slot) : Prop :=
  c.request.cacheKey = some slot.key ∨ (slot.isPending = false ∧ ttl < now - slot.ts)

/-- The condition on a step: no reservation and no fresh response leaves the cache
while a duplicate can still come for it. -/
def KeepsSlots (cfg : Config) (x : State π × ℤ) : Action π → Prop
  | .arrive r _ =>
      ∀ key ∈ r.cacheKey, lookup Slot.key key x.1.cache = none →
        ∀ c ∈ x.1.calls, c.phase.isAborted = true → c.request.cacheKey ≠ some key
  | .resume _ => True
  | .json i _ now =>
      ∀ c ∈ x.1.calls[i]?, c.request.cacheKey ≠ none → cfg.maxEntries ≤ x.1.cache.length →
        ∀ slot ∈ x.1.cache.head?, MayEvict cfg.ttl now c slot
  | .close i => ∀ c ∈ x.1.calls, c.phase.waitsOn i = false
  | .finish i => (waiters i x.1.calls).length ≤ 1
  | .sweep now => ∀ slot ∈ x.1.cache, slot.isPending = true → now - slot.ts ≤ cfg.ttl

instance StartsFresh.decidable (ttl : ℤ) (past : List Event) :
    ∀ ev, Decidable (StartsFresh ttl past ev) := fun ev => by
  unfold StartsFresh
  split <;> infer_instance

instance (ttl : ℤ) (s : State π) : Decidable (OneHandler ttl s) :=
  decidable_of_iff
    ((s.calls.filterMap Call.executingKey).Nodup ∧ History.Along (StartsFresh ttl) s.log)
    ⟨fun h => ⟨h.1, h.2⟩, fun h => ⟨h.1, h.2⟩⟩

instance (ttl now : ℤ) (c : Call π) (slot : Slot) : Decidable (MayEvict ttl now c slot) :=
  inferInstanceAs (Decidable (_ ∨ _))

instance KeepsSlots.decidable (cfg : Config) (x : State π × ℤ) :
    ∀ a, Decidable (KeepsSlots cfg x a) := fun a => by
  unfold KeepsSlots
  split <;> infer_instance

/-! ## Executing handlers -/

variable {key : String} {phase : Phase} {i : ℕ} {now clock : ℤ} {cfg : Config}

variable {c : Call π} {s t : State π} {r : Request π} {attached : Bool} {response : Response}
  {x y : State π × ℤ} {a : Action π} {ttl : ℤ}

theorem executingKey_eq_some :
    c.executingKey = some key ↔
      (∃ attached, c.phase = .running attached) ∧ c.request.cacheKey = some key := by
  rw [Call.executingKey]
  cases h : c.phase <;> simp [Phase.isRunning]

/-- Keys told apart by position: none occurs twice. -/
theorem nodup_filterMap_of_inj {α β : Type*} {f : α → Option β} {l : List α}
    (h : ∀ (i j : ℕ) a b k, l[i]? = some a → l[j]? = some b → f a = some k → f b = some k → i = j) :
    (l.filterMap f).Nodup := by
  induction l with
  | nil => exact nodup_nil
  | cons x l ih =>
    have htail : (l.filterMap f).Nodup := by
      refine ih fun i j a b k hi hj ha hb => ?_
      have := h (i + 1) (j + 1) a b k (by simpa using hi) (by simpa using hj) ha hb
      omega
    cases hx : f x with
    | none => simpa [filterMap_cons, hx] using htail
    | some k =>
      rw [filterMap_cons, hx]
      refine nodup_cons.mpr ⟨fun hk => ?_, htail⟩
      obtain ⟨y, hy, hfy⟩ := mem_filterMap.mp hk
      obtain ⟨n, hn⟩ := mem_iff_getElem?.mp hy
      have := h 0 (n + 1) x y k rfl (by simpa using hn) hx hfy
      omega

/-! ## The reservations -/

/-- What holds of the cache and the requests as long as the steps keep the slots. -/
structure SlotInv (s : State π) : Prop where
  /-- One slot a key. -/
  unique : UniqueKeys Slot.key s.cache
  /-- The handler of a connected client has its reservation, -/
  reserved : ∀ (i : ℕ) (c : Call π) (key : String), s.calls[i]? = some c →
    c.phase = .running true → c.request.cacheKey = some key →
    ∃ slot ∈ s.cache, slot.key = key ∧ slot.entry = .pending i
  /-- and a reservation has its handler. -/
  pending : ∀ slot ∈ s.cache, ∀ i, slot.entry = .pending i →
    ∃ c, s.calls[i]? = some c ∧ c.phase = .running true ∧ c.request.cacheKey = some slot.key
  /-- A request waits for the handler of its key. -/
  waiting : ∀ (j : ℕ) (c : Call π) (i : ℕ), s.calls[j]? = some c → c.phase = .waiting i →
    ∃ d key, s.calls[i]? = some d ∧ d.phase = .running true ∧ d.request.cacheKey = some key ∧
      c.request.cacheKey = some key
  /-- At most one handler a key executes. -/
  one : ∀ (i j : ℕ) (c d : Call π) (key : String), s.calls[i]? = some c → s.calls[j]? = some d →
    c.executingKey = some key → d.executingKey = some key → i = j
  /-- A released waiter finds its slot free and no handler of its key executing, -/
  released : ∀ i ∈ s.microtasks, ∃ c key, s.calls[i]? = some c ∧ c.phase = .released ∧
    c.request.cacheKey = some key ∧ (∀ slot ∈ s.cache, slot.key ≠ key) ∧
    ∀ (j : ℕ) (d : Call π), s.calls[j]? = some d → d.executingKey ≠ some key
  /-- and is the only one of its key. -/
  distinct : ∀ i ∈ s.microtasks, ∀ j ∈ s.microtasks, ∀ c d, s.calls[i]? = some c →
    s.calls[j]? = some d → c.request.cacheKey = d.request.cacheKey → i = j
  nodup : s.microtasks.Nodup

/-- A new request that does not reserve a slot. -/
theorem SlotInv.push (hi : SlotInv s) (hidle : s.microtasks = [])
    (hnot : phase.isRunning = true → r.cacheKey = none)
    (hwait : ∀ j, phase = .waiting j → ∃ d key, s.calls[j]? = some d ∧ d.phase = .running true ∧
      d.request.cacheKey = some key ∧ r.cacheKey = some key) : SlotInv (s.push r phase) := by
  have hexec : (⟨r, phase⟩ : Call π).executingKey = none := by
    rw [Call.executingKey]
    split
    · rename_i h
      exact hnot h
    · rfl
  have hempty : ∀ i, i ∉ (s.push r phase).microtasks := by
    intro i hmem
    change i ∈ s.microtasks at hmem
    rw [hidle] at hmem
    cases hmem
  refine ⟨hi.unique, ?_, ?_, ?_, ?_, fun i h => absurd h (hempty i),
    fun i h => absurd h (hempty i), hi.nodup⟩
  · intro i c key hc hp hk
    rcases getElem?_push_iff.mp hc with hc | ⟨-, rfl⟩
    · exact hi.reserved i c key hc hp hk
    · rw [executingKey_eq_some.mpr ⟨⟨true, hp⟩, hk⟩] at hexec
      cases hexec
  · intro slot hslot i he
    obtain ⟨c, hc, h⟩ := hi.pending slot hslot i he
    exact ⟨c, getElem?_push_iff.mpr (.inl hc), h⟩
  · intro j c i hc hp
    rcases getElem?_push_iff.mp hc with hc | ⟨-, rfl⟩
    · obtain ⟨d, key, hd, h⟩ := hi.waiting j c i hc hp
      exact ⟨d, key, getElem?_push_iff.mpr (.inl hd), h⟩
    · obtain ⟨d, key, hd, h⟩ := hwait i hp
      exact ⟨d, key, getElem?_push_iff.mpr (.inl hd), h⟩
  · intro i j c d key hc hd hce hde
    rcases getElem?_push_iff.mp hc with hc | ⟨-, rfl⟩
    · rcases getElem?_push_iff.mp hd with hd | ⟨-, rfl⟩
      · exact hi.one i j c d key hc hd hce hde
      · rw [hexec] at hde
        cases hde
    · rw [hexec] at hce
      cases hce

/-- The handler of request `i` starts: its slot is free, nobody executes its key, and
no released waiter is left with its key. -/
theorem SlotInv.starts (hi : SlotInv s) (hk : r.cacheKey = some key)
    (hfree : ∀ slot ∈ s.cache, slot.key ≠ key)
    (hnone : ∀ (j : ℕ) (d : Call π), s.calls[j]? = some d → d.executingKey ≠ some key)
    (hold : ∀ c, s.calls[i]? = some c → c.phase = .released)
    (hcache : t.cache = upsert Slot.key ⟨key, .pending i, now⟩ s.cache)
    (hcalls : ∀ (j : ℕ) (c : Call π), t.calls[j]? = some c ↔
      (j = i ∧ c = ⟨r, .running true⟩) ∨ (j ≠ i ∧ s.calls[j]? = some c))
    (hmicro : ∀ j ∈ t.microtasks, j ∈ s.microtasks ∧ j ≠ i ∧
      ∀ c, s.calls[j]? = some c → c.request.cacheKey ≠ some key) (hnodup : t.microtasks.Nodup) :
    SlotInv t := by
  have hmem : ∀ {slot : Slot}, slot ∈ t.cache ↔
      slot = ⟨key, .pending i, now⟩ ∨ slot ∈ s.cache ∧ slot.key ≠ key := by
    intro slot
    rw [hcache]
    exact hi.unique.mem_upsert_iff
  have hrunning : ∀ {j : ℕ} {c : Call π}, s.calls[j]? = some c → c.phase = .running true →
      t.calls[j]? = some c := by
    intro j c hc hp
    refine (hcalls j c).mpr (.inr ⟨fun hj => ?_, hc⟩)
    have := hold c (hj ▸ hc)
    rw [hp] at this
    cases this
  have hexec : ∀ k, (⟨r, .running true⟩ : Call π).executingKey = some k → k = key := by
    intro k h
    have := (executingKey_eq_some.mp h).2
    rw [hk] at this
    exact (some.inj this).symm
  refine ⟨?_, ?_, ?_, ?_, ?_, ?_, ?_, hnodup⟩
  · rw [hcache]
    exact hi.unique.upsert _
  · intro j c k hc hp hck
    rcases (hcalls j c).mp hc with ⟨rfl, rfl⟩ | ⟨-, hc⟩
    · rw [hk] at hck
      cases hck
      exact ⟨_, hmem.mpr (.inl rfl), rfl, rfl⟩
    · obtain ⟨slot, hslot, hsk, he⟩ := hi.reserved j c k hc hp hck
      exact ⟨slot, hmem.mpr (.inr ⟨hslot, hfree slot hslot⟩), hsk, he⟩
  · intro slot hslot j he
    rcases hmem.mp hslot with rfl | ⟨hslot, -⟩
    · cases he
      exact ⟨_, (hcalls i _).mpr (.inl ⟨rfl, rfl⟩), rfl, hk⟩
    · obtain ⟨c, hc, hp, hck⟩ := hi.pending slot hslot j he
      exact ⟨c, hrunning hc hp, hp, hck⟩
  · intro j c n hc hp
    rcases (hcalls j c).mp hc with ⟨rfl, rfl⟩ | ⟨-, hc⟩
    · cases hp
    · obtain ⟨d, k, hd, hdp, h⟩ := hi.waiting j c n hc hp
      exact ⟨d, k, hrunning hd hdp, hdp, h⟩
  · intro m n c d k hc hd hce hde
    rcases (hcalls m c).mp hc with ⟨rfl, rfl⟩ | ⟨-, hc⟩
    · rcases (hcalls n d).mp hd with ⟨rfl, rfl⟩ | ⟨-, hd⟩
      · rfl
      · exact absurd (hexec k hce ▸ hde) (hnone n d hd)
    · rcases (hcalls n d).mp hd with ⟨rfl, rfl⟩ | ⟨-, hd⟩
      · exact absurd (hexec k hde ▸ hce) (hnone m c hc)
      · exact hi.one m n c d k hc hd hce hde
  · intro j hj
    obtain ⟨hjs, hji, hother⟩ := hmicro j hj
    obtain ⟨c, k, hc, hp, hck, hslots, hothers⟩ := hi.released j hjs
    have hne : key ≠ k := fun h => hother c hc (h ▸ hck)
    refine ⟨c, k, (hcalls j c).mpr (.inr ⟨hji, hc⟩), hp, hck, fun slot hslot => ?_,
      fun n d hd hde => ?_⟩
    · rcases hmem.mp hslot with rfl | ⟨hslot, -⟩
      · exact hne
      · exact hslots slot hslot
    · rcases (hcalls n d).mp hd with ⟨rfl, rfl⟩ | ⟨-, hd⟩
      · exact hne (hexec k hde).symm
      · exact hothers n d hd hde
  · intro m hm n hn c d hc hd hkeys
    obtain ⟨hms, hmi, -⟩ := hmicro m hm
    obtain ⟨hns, hni, -⟩ := hmicro n hn
    have hcs := ((hcalls m c).mp hc).resolve_left (fun h => hmi h.1)
    have hds := ((hcalls n d).mp hd).resolve_left (fun h => hni h.1)
    exact hi.distinct m hms n hns c d hcs.2 hds.2 hkeys

/-- The handler of a call without a reservation stops executing, or loses its client. -/
theorem SlotInv.unreserved (hi : SlotInv s) (hc : s.calls[i]? = some c)
    (hrun : c.phase.isRunning = true) (hun : c.phase = .running false ∨ c.request.cacheKey = none)
    (hphase : phase.isRunning = true → c.request.cacheKey = none)
    (hwait : ∀ j, phase ≠ .waiting j) : SlotInv { s with calls := setPhase i phase s.calls } := by
  have hother : ∀ {j : ℕ} {d : Call π}, j ≠ i → s.calls[j]? = some d →
      (setPhase i phase s.calls)[j]? = some d := by
    intro j d hj hd
    exact getElem?_setPhase_iff.mpr ⟨d, hd, by rw [if_neg hj]⟩
  have hback : ∀ {j : ℕ} {d : Call π}, (setPhase i phase s.calls)[j]? = some d →
      (j = i ∧ d = { c with phase := phase }) ∨ (j ≠ i ∧ s.calls[j]? = some d) := by
    intro j d hd
    obtain ⟨d₀, hd₀, rfl⟩ := getElem?_setPhase_iff.mp hd
    by_cases hj : j = i
    · subst hj
      rw [hc] at hd₀
      cases hd₀
      exact .inl ⟨rfl, by rw [if_pos rfl]⟩
    · rw [if_neg hj]
      exact .inr ⟨hj, hd₀⟩
  have hexec : ({ c with phase := phase } : Call π).executingKey = none := by
    rw [Call.executingKey]
    split
    · rename_i h
      exact hphase h
    · rfl
  -- The call itself has no reservation, so the running calls of the others are not it.
  have hne : ∀ {j : ℕ} {d : Call π} {k : String}, s.calls[j]? = some d →
      d.phase = .running true → d.request.cacheKey = some k → j ≠ i := by
    rintro j d k hd hp hk rfl
    rw [hc] at hd
    cases hd
    rcases hun with h | h
    · rw [hp] at h
      cases h
    · rw [hk] at h
      cases h
  have hmicro : ∀ j ∈ s.microtasks, j ≠ i := by
    rintro j hj rfl
    obtain ⟨d, -, hd, hp, -⟩ := hi.released j hj
    rw [hc] at hd
    cases hd
    rw [hp] at hrun
    cases hrun
  refine ⟨hi.unique, ?_, ?_, ?_, ?_, ?_, ?_, hi.nodup⟩
  · intro j d k hd hp hk
    rcases hback hd with ⟨rfl, rfl⟩ | ⟨-, hd⟩
    · rw [executingKey_eq_some.mpr ⟨⟨true, hp⟩, hk⟩] at hexec
      cases hexec
    · exact hi.reserved j d k hd hp hk
  · intro slot hslot j he
    obtain ⟨d, hd, hp, hk⟩ := hi.pending slot hslot j he
    exact ⟨d, hother (hne hd hp hk) hd, hp, hk⟩
  · intro j d n hd hp
    rcases hback hd with ⟨rfl, rfl⟩ | ⟨-, hd⟩
    · exact absurd hp (hwait n)
    · obtain ⟨e, k, he, hep, hek, h⟩ := hi.waiting j d n hd hp
      exact ⟨e, k, hother (hne he hep hek) he, hep, hek, h⟩
  · intro m n d e k hd he hde hee
    rcases hback hd with ⟨rfl, rfl⟩ | ⟨-, hd⟩
    · rw [hexec] at hde
      cases hde
    · rcases hback he with ⟨rfl, rfl⟩ | ⟨-, he⟩
      · rw [hexec] at hee
        cases hee
      · exact hi.one m n d e k hd he hde hee
  · intro j hj
    obtain ⟨d, k, hd, hp, hk, hslots, hothers⟩ := hi.released j hj
    refine ⟨d, k, hother (hmicro j hj) hd, hp, hk, hslots, fun n e he hee => ?_⟩
    rcases hback he with ⟨rfl, rfl⟩ | ⟨-, he⟩
    · rw [hexec] at hee
      cases hee
    · exact hothers n e he hee
  · intro m hm n hn d e hd he hkeys
    have hd := (hback hd).resolve_left (fun h => hmicro m hm h.1)
    have he := (hback he).resolve_left (fun h => hmicro n hn h.1)
    exact hi.distinct m hm n hn d e hd.2 he.2 hkeys

theorem eq_nil_or_singleton {l : List ℕ} (h : l.length ≤ 1) : l = [] ∨ ∃ w, l = [w] := by
  cases l with
  | nil => exact .inl rfl
  | cons w rest =>
    have hrest : rest = [] := length_eq_zero_iff.mp (by simpa using h)
    exact .inr ⟨w, by rw [hrest]⟩

/-- The handler of a keyed call leaves its slot: it is answered, ended, or without its
client, and its waiters go on. -/
theorem SlotInv.leaves (hi : SlotInv s) (own others : Phase) (new : List ℕ)
    (hc : s.calls[i]? = some c) (hrun : c.phase.isRunning = true)
    (hk : c.request.cacheKey = some key) (hunique : UniqueKeys Slot.key t.cache)
    (hfrom : ∀ slot ∈ t.cache, slot.key ≠ key → slot ∈ s.cache)
    (hkept : ∀ slot ∈ s.cache, slot.key ≠ key → slot.isPending = true → slot ∈ t.cache)
    (hfree : ∀ slot ∈ t.cache, slot.key = key → slot.isPending = false)
    (hcalls : t.calls = settleWaiters i others (setPhase i own s.calls))
    (hown : own.isRunning = true → own = .running false) (hownw : ∀ j, own ≠ .waiting j)
    (hothers : others.isRunning = false) (hothersw : ∀ j, others ≠ .waiting j)
    (hmicro : t.microtasks = s.microtasks ++ new)
    (hnew : ∀ w ∈ new, (∃ d, s.calls[w]? = some d ∧ d.phase = .waiting i) ∧ others = .released ∧
      own.isRunning = false ∧ ∀ slot ∈ t.cache, slot.key ≠ key) (hlength : new.length ≤ 1) :
    SlotInv t := by
  -- What the step does to each call.
  have hback : ∀ {j : ℕ} {d : Call π}, t.calls[j]? = some d →
      (j = i ∧ d = { c with phase := own }) ∨
        (j ≠ i ∧ ∃ d₀, s.calls[j]? = some d₀ ∧ d₀.phase = .waiting i ∧
          d = { d₀ with phase := others }) ∨
        (j ≠ i ∧ s.calls[j]? = some d ∧ d.phase.waitsOn i = false) := by
    intro j d hd
    rw [hcalls] at hd
    obtain ⟨d₁, hd₁, rfl⟩ := getElem?_settleWaiters_iff.mp hd
    obtain ⟨d₀, hd₀, rfl⟩ := getElem?_setPhase_iff.mp hd₁
    by_cases hj : j = i
    · subst hj
      rw [hc] at hd₀
      cases hd₀
      left
      have : own.waitsOn j = false := by
        cases how : own with
        | waiting n => exact absurd how (hownw n)
        | released | running | answered | ended => rfl
      simp [this]
    · right
      simp only [if_neg hj]
      cases hw : d₀.phase.waitsOn i with
      | true => exact .inl ⟨hj, d₀, hd₀, waitsOn_eq_true hw, by simp⟩
      | false => exact .inr ⟨hj, by simpa using hd₀, by simpa using hw⟩
  have hforth : ∀ {j : ℕ} {d : Call π}, j ≠ i → s.calls[j]? = some d →
      d.phase.waitsOn i = false → t.calls[j]? = some d := by
    intro j d hj hd hw
    rw [hcalls]
    refine getElem?_settleWaiters_iff.mpr ⟨d, getElem?_setPhase_iff.mpr ⟨d, hd, ?_⟩, ?_⟩
    · rw [if_neg hj]
    · rw [if_neg (by rw [hw]; exact Bool.false_ne_true)]
  have hci : c.executingKey = some key := by
    cases hp : c.phase with
    | running attached => exact executingKey_eq_some.mpr ⟨⟨attached, hp⟩, hk⟩
    | waiting | released | answered | ended =>
      rw [hp] at hrun
      cases hrun
  -- A handler that executes after the step executed before it.
  have hexec : ∀ {j : ℕ} {d : Call π} {k : String}, t.calls[j]? = some d →
      d.executingKey = some k → ∃ d₀, s.calls[j]? = some d₀ ∧ d₀.executingKey = some k ∧
        (j = i → own.isRunning = true) := by
    intro j d k hd hde
    rcases hback hd with ⟨rfl, rfl⟩ | ⟨-, d₀, -, -, rfl⟩ | ⟨hj, hd, -⟩
    · obtain ⟨⟨attached, hp⟩, hkey⟩ := executingKey_eq_some.mp hde
      refine ⟨c, hc, ?_, fun _ => by rw [show own = .running attached from hp]; rfl⟩
      rw [hci, ← hkey, hk]
    · obtain ⟨⟨attached, hp⟩, -⟩ := executingKey_eq_some.mp hde
      rw [show others = .running attached from hp] at hothers
      cases hothers
    · exact ⟨d, hd, hde, fun h => absurd h hj⟩
  have hotherKey : ∀ {j : ℕ} {d : Call π} {k : String}, j ≠ i → s.calls[j]? = some d →
      d.executingKey = some k → k ≠ key :=
    fun hj hd hde hkey => hj (hi.one _ i _ c key hd hc (hkey ▸ hde) hci)
  have hnotMicro : i ∉ s.microtasks := by
    intro h
    obtain ⟨d, -, hd, hp, -⟩ := hi.released i h
    rw [hc] at hd
    cases hd
    rw [hp] at hrun
    cases hrun
  -- The old microtasks have other keys, the new one has the key of the call.
  have holdKey : ∀ j ∈ s.microtasks, ∀ d, t.calls[j]? = some d →
      s.calls[j]? = some d ∧ d.request.cacheKey ≠ some key := by
    intro j hj d hd
    obtain ⟨d₀, k, hd₀, hp, hdk, -, hnone⟩ := hi.released j hj
    have hji : j ≠ i := fun h => hnotMicro (h ▸ hj)
    have hsame := hforth hji hd₀ (by rw [hp]; rfl)
    rw [hd] at hsame
    cases hsame
    refine ⟨hd₀, fun h => hnone i c hc ?_⟩
    rw [h] at hdk
    exact hci.trans hdk
  have hnewKey : ∀ j ∈ new, ∀ d, t.calls[j]? = some d → d.request.cacheKey = some key := by
    intro j hj d hd
    obtain ⟨⟨d₀, hd₀, hp⟩, -⟩ := hnew j hj
    obtain ⟨c', k, hc', -, hck, hdk⟩ := hi.waiting j d₀ i hd₀ hp
    rw [hc] at hc'
    cases hc'
    rw [hk] at hck
    cases hck
    rcases hback hd with ⟨rfl, rfl⟩ | ⟨-, d₁, hd₁, -, rfl⟩ | ⟨-, hd₁, -⟩
    · exact hk
    · rw [hd₀] at hd₁
      cases hd₁
      exact hdk
    · rw [hd₀] at hd₁
      cases hd₁
      exact hdk
  refine ⟨hunique, ?_, ?_, ?_, ?_, ?_, ?_, ?_⟩
  · intro j d k hd hp hdk
    rcases hback hd with ⟨rfl, rfl⟩ | ⟨-, d₀, -, -, rfl⟩ | ⟨hj, hd, -⟩
    · have hp : own = .running true := hp
      have := hown (by rw [hp]; rfl)
      rw [hp] at this
      cases this
    · rw [show others = .running true from hp] at hothers
      cases hothers
    · obtain ⟨slot, hslot, hsk, he⟩ := hi.reserved j d k hd hp hdk
      have hne := hotherKey hj hd (executingKey_eq_some.mpr ⟨⟨true, hp⟩, hdk⟩)
      exact ⟨slot, hkept slot hslot (hsk ▸ hne) (by rw [Slot.isPending, he]), hsk, he⟩
  · intro slot hslot j he
    have hne : slot.key ≠ key := by
      intro h
      have := hfree slot hslot h
      rw [Slot.isPending, he] at this
      cases this
    obtain ⟨d, hd, hp, hdk⟩ := hi.pending slot (hfrom slot hslot hne) j he
    refine ⟨d, hforth (fun hj => ?_) hd (by rw [hp]; rfl), hp, hdk⟩
    subst hj
    rw [hc] at hd
    cases hd
    rw [hk] at hdk
    exact hne (some.inj hdk).symm
  · intro j d n hd hp
    rcases hback hd with ⟨rfl, rfl⟩ | ⟨-, d₀, -, -, rfl⟩ | ⟨hj, hd, hw⟩
    · exact absurd hp (hownw n)
    · exact absurd hp (hothersw n)
    · obtain ⟨e, k, he, hep, hek, h⟩ := hi.waiting j d n hd hp
      refine ⟨e, k, hforth (fun hn => ?_) he (by rw [hep]; rfl), hep, hek, h⟩
      rw [hp, hn] at hw
      simp [Phase.waitsOn] at hw
  · intro m n d e k hd he hde hee
    obtain ⟨d₀, hd₀, hde₀, -⟩ := hexec hd hde
    obtain ⟨e₀, he₀, hee₀, -⟩ := hexec he hee
    exact hi.one m n d₀ e₀ k hd₀ he₀ hde₀ hee₀
  · intro j hj
    rw [hmicro, mem_append] at hj
    rcases hj with hj | hj
    · obtain ⟨d, k, hd, hp, hdk, hslots, hnone⟩ := hi.released j hj
      have hne : key ≠ k := fun h => hnone i c hc (h ▸ hci)
      refine ⟨d, k, hforth (fun h => ?_) hd (by rw [hp]; rfl), hp, hdk, fun slot hslot hsk => ?_,
        fun n e he hee => ?_⟩
      · subst h
        rw [hc] at hd
        cases hd
        rw [hp] at hrun
        cases hrun
      · exact hslots slot (hfrom slot hslot (fun h => hne (h.symm.trans hsk))) hsk
      · obtain ⟨e₀, he₀, hee₀, -⟩ := hexec he hee
        exact hnone n e₀ he₀ hee₀
    · obtain ⟨⟨d, hd, hp⟩, hrel, hidle, hslots⟩ := hnew j hj
      obtain ⟨c', k, hc', -, hck, hdk⟩ := hi.waiting j d i hd hp
      rw [hc] at hc'
      cases hc'
      rw [hk] at hck
      cases hck
      have hji : j ≠ i := by
        rintro rfl
        rw [hc] at hd
        cases hd
        rw [hp] at hrun
        cases hrun
      refine ⟨{ d with phase := others }, key, ?_, hrel, hdk, hslots, fun n e he hee => ?_⟩
      · rw [hcalls]
        refine getElem?_settleWaiters_iff.mpr ⟨d, getElem?_setPhase_iff.mpr ⟨d, hd, ?_⟩, ?_⟩
        · rw [if_neg hji]
        · rw [if_pos (by rw [hp]; simp [Phase.waitsOn])]
      · obtain ⟨e₀, he₀, hee₀, hown'⟩ := hexec he hee
        have := hown' (hi.one n i e₀ c key he₀ hc hee₀ hci)
        rw [hidle] at this
        cases this
  · intro m hm n hn d e hd he hkeys
    rw [hmicro, mem_append] at hm hn
    rcases hm with hm | hm <;> rcases hn with hn | hn
    · exact hi.distinct m hm n hn d e (holdKey m hm d hd).1 (holdKey n hn e he).1 hkeys
    · exact absurd (hkeys.trans (hnewKey n hn e he)) (holdKey m hm d hd).2
    · exact absurd (hkeys.symm.trans (hnewKey m hm d hd)) (holdKey n hn e he).2
    · rcases eq_nil_or_singleton hlength with rfl | ⟨w, rfl⟩
      · cases hm
      · exact (mem_singleton.mp hm).trans (mem_singleton.mp hn).symm
  · rw [hmicro, nodup_append']
    refine ⟨hi.nodup, ?_, fun j hj hjn => ?_⟩
    · rcases eq_nil_or_singleton hlength with rfl | ⟨w, rfl⟩
      · exact nodup_nil
      · exact nodup_singleton w
    · obtain ⟨d, k, hd, hp, hdk, -⟩ := hi.released j hj
      obtain ⟨⟨d₀, hd₀, hw⟩, -⟩ := hnew j hjn
      rw [hd] at hd₀
      cases hd₀
      rw [hp] at hw
      cases hw

/-- A request nobody waits for has no waiters to settle. -/
theorem settleWaiters_eq_self {calls : List (Call π)} (h : ∀ c ∈ calls, c.phase.waitsOn i = false) :
    settleWaiters i phase calls = calls := by
  refine (map_congr_left fun c hc => ?_).trans (List.map_id _)
  rw [if_neg (by rw [h c hc]; exact Bool.false_ne_true), id]

/-- A handler without a client has no waiters. -/
theorem SlotInv.not_waitsOn (hi : SlotInv s) (hc : s.calls[i]? = some c)
    (hp : c.phase ≠ .running true) : ∀ d ∈ s.calls, d.phase.waitsOn i = false := by
  intro d hd
  obtain ⟨j, hj⟩ := mem_iff_getElem?.mp hd
  cases hw : d.phase.waitsOn i with
  | false => rfl
  | true =>
    obtain ⟨c', -, hc', hp', -⟩ := hi.waiting j d i hj (waitsOn_eq_true hw)
    rw [hc] at hc'
    cases hc'
    exact absurd hp' hp

theorem SlotInv.json (hi : SlotInv s) (hc : s.calls[i]? = some c)
    (hp : c.phase = .running attached)
    (hevict : c.request.cacheKey ≠ none → cfg.maxEntries ≤ s.cache.length →
      ∀ slot ∈ s.cache.head?, MayEvict cfg.ttl now c slot) :
    SlotInv (sendJson cfg i c.request attached response now s) := by
  have hrun : c.phase.isRunning = true := by rw [hp]; rfl
  rw [sendJson]
  split
  · rename_i hk
    refine hi.unreserved hc hrun (.inr hk) (fun h => hk) (fun j => ?_)
    cases attached <;> exact fun h => by cases h
  · rename_i key hk
    have hunique := uniqueKeys_evict cfg hi.unique
    have hmem : ∀ {slot : Slot}, slot ∈ upsert Slot.key ⟨key, .record response i, now⟩
        (evict cfg s.cache) ↔ slot = ⟨key, .record response i, now⟩ ∨
          slot ∈ evict cfg s.cache ∧ slot.key ≠ key := hunique.mem_upsert_iff
    refine hi.leaves (if attached then .answered response i else .ended) (.answered response i) []
      hc hrun hk (hunique.upsert _) ?_ ?_ ?_ ?_ ?_ ?_ rfl (fun j h => by cases h)
      (append_nil _).symm (fun w hw => by cases hw) (Nat.zero_le 1)
    · intro slot hslot hne
      rcases hmem.mp hslot with rfl | ⟨hslot, -⟩
      · exact absurd rfl hne
      · exact mem_of_mem_evict hslot
    · intro slot hslot hne hpending
      refine hmem.mpr (.inr ⟨?_, hne⟩)
      refine (mem_evict_or_head hslot).resolve_right fun hfull => ?_
      rcases hevict (by rw [hk]; exact some_ne_none key) hfull.1 slot hfull.2 with h | h
      · rw [hk] at h
        exact hne (some.inj h).symm
      · rw [hpending] at h
        cases h.1
    · intro slot hslot hkey
      rcases hmem.mp hslot with rfl | ⟨-, hne⟩
      · rfl
      · exact absurd hkey hne
    · cases attached with
      | true => rfl
      | false =>
        refine (settleWaiters_eq_self fun d hd => ?_).symm
        obtain ⟨j, hj⟩ := mem_iff_getElem?.mp hd
        obtain ⟨d₀, hd₀, rfl⟩ := getElem?_setPhase_iff.mp hj
        split
        · rfl
        · exact hi.not_waitsOn hc (by rw [hp]; exact fun h => by cases h) d₀
            (mem_of_getElem? hd₀)
    · cases attached <;> exact fun h => by cases h
    · cases attached <;> exact fun j h => by cases h

/-- The handler of a connected client ends without a JSON body, or loses its client. -/
theorem SlotInv.onEnd (hi : SlotInv s) {own : Phase} (hc : s.calls[i]? = some c)
    (hp : c.phase = .running true) (hown : own = .ended ∧ (waiters i s.calls).length ≤ 1 ∨
      own = .running false ∧ waiters i s.calls = []) :
    SlotInv (onEnd i c.request { s with calls := setPhase i own s.calls }) := by
  have hrun : c.phase.isRunning = true := by rw [hp]; rfl
  have hownw : ∀ j, own ≠ .waiting j := by
    rcases hown with ⟨rfl, -⟩ | ⟨rfl, -⟩ <;> exact fun j h => by cases h
  rw [Idempotency.onEnd]
  split
  · rename_i hk
    exact hi.unreserved hc hrun (.inr hk) (fun _ => hk) hownw
  · rename_i key hk
    have hmem : ∀ {slot : Slot}, slot ∈ dropOwn i key s.cache ↔
        slot ∈ s.cache ∧ ¬(slot.key = key ∧ slot.entry = .pending i) := mem_dropOwn_iff hi.unique
    -- Its slot holds its own reservation, which is dropped.
    have hfree : ∀ slot ∈ dropOwn i key s.cache, slot.key ≠ key := by
      intro slot hslot hkey
      obtain ⟨hslot, hnot⟩ := hmem.mp hslot
      obtain ⟨slot', hslot', hkey', he⟩ := hi.reserved i c key hc hp hk
      rw [hi.unique.eq_of_mem hslot hslot' (hkey.trans hkey'.symm)] at hnot
      exact hnot ⟨hkey', he⟩
    have hwaiters : waiters i (setPhase i own s.calls) = waiters i s.calls := by
      rw [waiters, waiters, setPhase, length_modify]
      refine filter_congr fun j _ => ?_
      rw [getElem?_modify]
      by_cases hj : i = j
      · subst hj
        rw [hc]
        rcases hown with ⟨rfl, -⟩ | ⟨rfl, -⟩ <;> simp [hp, Phase.waitsOn]
      · simp [hj]
    refine hi.leaves own .released (waiters i (setPhase i own s.calls)) hc hrun hk
      (uniqueKeys_dropOwn hi.unique) (fun slot hslot _ => (hmem.mp hslot).1)
      (fun slot hslot hne _ => hmem.mpr ⟨hslot, fun h => hne h.1⟩)
      (fun slot hslot hkey => absurd hkey (hfree slot hslot)) rfl ?_ hownw rfl
      (fun j h => by cases h) rfl ?_ ?_
    · rcases hown with ⟨rfl, -⟩ | ⟨rfl, -⟩
      · exact fun h => by cases h
      · exact fun _ => rfl
    · intro w hw
      rw [hwaiters] at hw
      rcases hown with ⟨rfl, -⟩ | ⟨rfl, hnil⟩
      · exact ⟨mem_waiters_iff.mp hw, rfl, rfl, hfree⟩
      · rw [hnil] at hw
        cases hw
    · rw [hwaiters]
      rcases hown with ⟨-, h⟩ | ⟨-, h⟩
      · exact h
      · rw [h]
        exact Nat.zero_le 1

/-- Every step that keeps the slots keeps the invariant of the reservations. -/
theorem slotInv_step (hi : SlotInv x.1) (hkeeps : KeepsSlots cfg x a)
    (h : timedStep cfg x a = some y) : SlotInv y.1 := by
  obtain ⟨s, clock⟩ := x
  obtain ⟨t, later⟩ := y
  obtain ⟨hstep, -, -⟩ := Machine.clocked_eq_some h
  simp only at hi hstep ⊢
  cases Step.of_step hstep with
  | pass r now hidle hk => exact hi.push hidle (fun _ => hk) (fun j h => by cases h)
  | start r now key hidle hk hfree =>
    have hslots := lookup_eq_none.mp hfree
    have hnew : s.calls[s.calls.length]? = none := getElem?_eq_none (le_refl _)
    refine hi.starts hk hslots ?_ (fun c hc => by rw [hnew] at hc; cases hc) rfl ?_ ?_ hi.nodup
    · intro j d hd hde
      obtain ⟨⟨attached, hp⟩, hdk⟩ := executingKey_eq_some.mp hde
      cases attached with
      | true =>
        obtain ⟨slot, hslot, hsk, -⟩ := hi.reserved j d key hd hp hdk
        exact hslots slot hslot hsk
      | false => exact hkeeps key hk hfree d (mem_of_getElem? hd) (by rw [hp]; rfl) hdk
    · intro j c
      refine getElem?_push_iff.trans ?_
      rw [or_comm]
      refine or_congr_right (iff_and_self.mpr fun hc hj => ?_)
      rw [hj, hnew] at hc
      cases hc
    · intro j hj
      change j ∈ s.microtasks at hj
      rw [hidle] at hj
      cases hj
  | replay r now key response j ts hidle hk hslot =>
    exact hi.push hidle (fun h => by cases h) (fun j h => by cases h)
  | wait r now key j ts hidle hk hslot =>
    refine hi.push hidle (fun h => by cases h) (fun n hn => ?_)
    cases hn
    obtain ⟨c, hc, hp, hck⟩ := hi.pending _ (mem_of_lookup hslot).1 j rfl
    exact ⟨c, key, hc, hp, hck, hk⟩
  | resume i rest c key now hq hc hp hk =>
    have hmem : i ∈ s.microtasks := by rw [hq]; exact mem_cons_self ..
    have hnodup := hi.nodup
    rw [hq, nodup_cons] at hnodup
    obtain ⟨c', k, hc', hp, hck, hslots, hnone⟩ := hi.released i hmem
    rw [hc] at hc'
    cases hc'
    rw [hk] at hck
    cases hck
    refine hi.starts (r := c.request) hk hslots hnone ?_ rfl ?_ ?_ hnodup.2
    · intro d hd
      rw [hc] at hd
      cases hd
      exact hp
    · intro j d
      refine getElem?_setPhase_iff.trans ⟨?_, ?_⟩
      · rintro ⟨d₀, hd₀, rfl⟩
        by_cases hj : j = i
        · subst hj
          rw [hc] at hd₀
          cases hd₀
          exact .inl ⟨rfl, by rw [if_pos rfl]⟩
        · exact .inr ⟨hj, by rw [if_neg hj]; exact hd₀⟩
      · rintro (⟨rfl, rfl⟩ | ⟨hj, hd⟩)
        · exact ⟨c, hc, by rw [if_pos rfl]⟩
        · exact ⟨d, hd, by rw [if_neg hj]⟩
    · intro j hj
      have hjs : j ∈ s.microtasks := by rw [hq]; exact mem_cons_of_mem _ hj
      have hji : j ≠ i := fun h => hnodup.1 (h ▸ hj)
      refine ⟨hjs, hji, fun d hd hdk => hji ?_⟩
      exact hi.distinct j hjs i hmem d c hd hc (hdk.trans hk.symm)
  | json i c attached response now hc hp => exact hi.json hc hp (hkeeps c hc)
  | close i c hidle hc hp =>
    refine hi.onEnd hc hp (.inr ⟨rfl, ?_⟩)
    rw [eq_nil_iff_forall_not_mem]
    intro j hj
    obtain ⟨d, hd, hw⟩ := mem_waiters_iff.mp hj
    have := hkeeps d (mem_of_getElem? hd)
    rw [hw] at this
    simp [Phase.waitsOn] at this
  | finish i c hc hp => exact hi.onEnd hc hp (.inl ⟨rfl, hkeeps⟩)
  | abandon i c hc hp =>
    exact hi.unreserved hc (by rw [hp]; rfl) (.inl hp) (fun h => by cases h)
      (fun j h => by cases h)
  | sweep now hidle =>
    refine ⟨hi.unique.filter _, ?_, ?_, hi.waiting, hi.one, ?_, hi.distinct, hi.nodup⟩
    · intro i c key hc hp hk
      obtain ⟨slot, hslot, hsk, he⟩ := hi.reserved i c key hc hp hk
      have := hkeeps slot hslot (by rw [Slot.isPending, he])
      exact ⟨slot, mem_filter.mpr ⟨hslot, by simpa using this⟩, hsk, he⟩
    · exact fun slot hslot => hi.pending slot (mem_filter.mp hslot).1
    · intro i hmem
      change i ∈ s.microtasks at hmem
      rw [hidle] at hmem
      cases hmem

/-! ## The responses -/

/-- What holds of the responses and the clock: a response younger than the TTL is still
in its slot. -/
structure TimeInv (ttl : ℤ) (s : State π) (clock : ℤ) : Prop where
  kept : ∀ i key response ts, .completed i key response ts ∈ s.log → ts ≤ clock ∧
    (clock - ts ≤ ttl → ∃ slot ∈ s.cache, slot.key = key ∧ slot.isPending = false ∧ ts ≤ slot.ts)
  fresh : History.Along (StartsFresh ttl) s.log

/-- A step that leaves the fresh responses in the cache. -/
theorem TimeInv.frame (hi : TimeInv ttl s clock) (hle : clock ≤ now) (hlog : t.log = s.log)
    (hkept : ∀ slot ∈ s.cache, slot.isPending = false → now - slot.ts ≤ ttl → slot ∈ t.cache) :
    TimeInv ttl t now := by
  refine ⟨fun i key response ts h => ?_, hlog ▸ hi.fresh⟩
  rw [hlog] at h
  obtain ⟨hts, hslot⟩ := hi.kept i key response ts h
  refine ⟨hts.trans hle, fun hfresh => ?_⟩
  obtain ⟨slot, hmem, hkey, hrecord, hle'⟩ := hslot (by omega)
  exact ⟨slot, hkept slot hmem hrecord (by omega), hkey, hrecord, hle'⟩

/-- A handler starts on a free slot: no response to its key is fresh. -/
theorem TimeInv.starts (hi : TimeInv ttl s clock) (hle : clock ≤ now)
    (hfree : ∀ slot ∈ s.cache, slot.key ≠ key)
    (hcache : t.cache = upsert Slot.key ⟨key, .pending i, now⟩ s.cache)
    (hlog : t.log = s.log ++ [.started i key now]) : TimeInv ttl t now := by
  constructor
  · intro j k response ts h
    rw [hlog, mem_append, mem_singleton] at h
    have h := h.resolve_right (fun h => by cases h)
    obtain ⟨hts, hslot⟩ := hi.kept j k response ts h
    refine ⟨hts.trans hle, fun hfresh => ?_⟩
    obtain ⟨slot, hmem, hkey, hrecord, hle'⟩ := hslot (by omega)
    refine ⟨slot, ?_, hkey, hrecord, hle'⟩
    rw [hcache]
    exact mem_upsert_of_ne hmem (hfree slot hmem)
  · rw [hlog]
    refine History.along_concat.mpr ⟨hi.fresh, fun ev hev ts hts => ?_⟩
    cases ev with
    | started => cases hts
    | completed j k response ts' =>
      simp only [Event.completedAt?, mem_def] at hts
      split at hts
      · rename_i hk
        cases hts
        subst hk
        by_contra hnot
        obtain ⟨-, hslot⟩ := hi.kept j k response ts hev
        obtain ⟨slot, hmem, hkey, -⟩ := hslot (by omega)
        exact hfree slot hmem hkey
      · cases hts

/-- A response is stored: the fresh ones of the other keys stay. -/
theorem TimeInv.json (hi : TimeInv cfg.ttl s clock) (hle : clock ≤ now)
    (hunique : UniqueKeys Slot.key s.cache)
    (hevict : c.request.cacheKey ≠ none → cfg.maxEntries ≤ s.cache.length →
      ∀ slot ∈ s.cache.head?, MayEvict cfg.ttl now c slot) :
    TimeInv cfg.ttl (sendJson cfg i c.request attached response now s) now := by
  rw [sendJson]
  split
  · exact hi.frame hle rfl fun slot hslot _ _ => hslot
  · rename_i key hk
    have hmem : ∀ {slot : Slot}, slot ∈ upsert Slot.key ⟨key, .record response i, now⟩
        (evict cfg s.cache) ↔ slot = ⟨key, .record response i, now⟩ ∨
          slot ∈ evict cfg s.cache ∧ slot.key ≠ key :=
      (uniqueKeys_evict cfg hunique).mem_upsert_iff
    constructor
    · intro j k response' ts h
      rw [mem_append, mem_singleton] at h
      rcases h with h | h
      · obtain ⟨hts, hslot⟩ := hi.kept j k response' ts h
        refine ⟨hts.trans hle, fun hfresh => ?_⟩
        by_cases hkk : k = key
        · subst hkk
          exact ⟨_, hmem.mpr (.inl rfl), rfl, rfl, hts.trans hle⟩
        · obtain ⟨slot, hslot, hkey, hrecord, hle'⟩ := hslot (by omega)
          refine ⟨slot, hmem.mpr (.inr ⟨?_, hkey ▸ hkk⟩), hkey, hrecord, hle'⟩
          refine (mem_evict_or_head hslot).resolve_right fun hfull => ?_
          rcases hevict (by rw [hk]; exact some_ne_none key) hfull.1 slot hfull.2 with h | h
          · rw [hk] at h
            exact hkk (hkey.symm.trans (some.inj h).symm)
          · omega
      · cases h
        exact ⟨le_refl _, fun _ => ⟨_, hmem.mpr (.inl rfl), rfl, rfl, le_refl _⟩⟩
    · exact History.along_concat.mpr ⟨hi.fresh, trivial⟩

/-- Every step that keeps the slots keeps the fresh responses. -/
theorem timeInv_step (hs : SlotInv x.1) (hi : TimeInv cfg.ttl x.1 x.2)
    (hkeeps : KeepsSlots cfg x a) (h : timedStep cfg x a = some y) : TimeInv cfg.ttl y.1 y.2 := by
  obtain ⟨s, clock⟩ := x
  obtain ⟨t, later⟩ := y
  obtain ⟨hstep, hle, hnow⟩ := Machine.clocked_eq_some h
  simp only at hs hi hstep hle hnow ⊢
  -- `onEnd` drops a reservation only.
  have hend : ∀ (i : ℕ) (c : Call π) (calls : List (Call π)),
      TimeInv cfg.ttl (onEnd i c.request { s with calls := calls }) later := by
    intro i c calls
    rw [onEnd]
    split
    · exact hi.frame hle rfl fun slot hslot _ _ => hslot
    · refine hi.frame hle rfl fun slot hslot hrecord _ => ?_
      refine (mem_dropOwn_iff hs.unique).mpr ⟨hslot, fun hown => ?_⟩
      rw [Slot.isPending, hown.2] at hrecord
      cases hrecord
  cases Step.of_step hstep with
  | pass | replay | wait | abandon => exact hi.frame hle rfl fun slot hslot _ _ => hslot
  | start r now key hidle hk hfree =>
    obtain rfl := hnow now rfl
    exact hi.starts hle (lookup_eq_none.mp hfree) rfl rfl
  | resume i rest c key now hq hc hp hk =>
    obtain rfl := hnow now rfl
    obtain ⟨c', k, hc', -, hck, hslots, -⟩ :=
      hs.released i (by rw [hq]; exact mem_cons_self ..)
    rw [hc] at hc'
    cases hc'
    rw [hk] at hck
    cases hck
    exact hi.starts hle hslots rfl rfl
  | json i c attached response now hc hp =>
    obtain rfl := hnow now rfl
    exact hi.json hle hs.unique (hkeeps c hc)
  | close i c hidle hc hp => exact hend i c _
  | finish i c hc hp => exact hend i c _
  | sweep now hidle =>
    obtain rfl := hnow now rfl
    refine hi.frame hle rfl fun slot hslot _ hfresh => mem_filter.mpr ⟨hslot, ?_⟩
    simpa using hfresh

/-! ## Whole runs -/

theorem slotInv_initial : SlotInv (initial : State π) := by
  refine ⟨nodup_nil, ?_, ?_, ?_, ?_, ?_, ?_, nodup_nil⟩ <;> simp [initial]

theorem timeInv_initial (ttl clock : ℤ) : TimeInv ttl (initial : State π) clock :=
  ⟨(fun i key response ts h => by cases h), History.along_nil⟩

/-- **One handler a key** in a run whose steps keep the slots: whatever requests
arrive, answer, disconnect and are retried, whenever the timer sweeps and the cache
is full. -/
theorem idempotency_oneHandler (cfg : Config) (clock : ℤ) (as : List (Action π)) (s : State π)
    (later : ℤ) (hrun : Machine.run (timedStep cfg) (initial, clock) as = some (s, later))
    (hkeeps : Machine.Meets (timedStep cfg) (KeepsSlots cfg) (initial, clock) as) :
    OneHandler cfg.ttl s := by
  have hi : SlotInv s ∧ TimeInv cfg.ttl s later :=
    Machine.inv_run_of_meets
      (fun _ _ _ hi hc h => ⟨slotInv_step hi.1 hc h, timeInv_step hi.1 hi.2 hc h⟩)
      (I := fun x : State π × ℤ => SlotInv x.1 ∧ TimeInv cfg.ttl x.1 x.2)
      ⟨slotInv_initial, timeInv_initial cfg.ttl clock⟩ hkeeps hrun
  exact ⟨nodup_filterMap_of_inj hi.1.one, hi.2.fresh⟩

/-! ## Two handlers -/

/-- A member adds an expense. -/
def expensePost : Request Unit where
  method := .post
  idempotencyKey := some "POST:/crews/c1/expenses:1"
  ip := "10.0.0.1"
  user := "ana"
  payload := ()

/-- The created expense. -/
def created : Response := ⟨201, .null⟩

/-- A duplicate waits, is answered with the first, and one more comes while the
response is cached; the sweep drops it, and a later retry executes. -/
def retriedRun : List (Action Unit) :=
  [.arrive expensePost 0, .arrive expensePost 5, .json 0 created 10, .arrive expensePost 20,
    .sweep 300011, .arrive expensePost 300012]

/-- The promise on a run of retries. -/
theorem oneHandler_retriedRun :
    ∃ s later, Machine.run (timedStep defaultConfig) (initial, 0) retriedRun = some (s, later) ∧
      OneHandler defaultConfig.ttl s := by
  obtain ⟨⟨s, later⟩, hs⟩ : ∃ x, Machine.run (timedStep defaultConfig) (initial, 0) retriedRun =
      some x := Option.isSome_iff_exists.mp (by decide)
  exact ⟨s, later, hs, idempotency_oneHandler defaultConfig 0 retriedRun s later hs
    (by decide)⟩

/-- The client of the first disconnects while its handler executes and a duplicate
waits. -/
def closedRun : List (Action Unit) :=
  [.arrive expensePost 0, .arrive expensePost 5, .close 0, .resume 6]

/-- **Two handlers of one key execute**: the reservation is dropped while its handler
goes on, and the waiter starts. -/
theorem two_handlers_after_close :
    ∃ x ∈ Machine.run (timedStep defaultConfig) (initial, 0) closedRun,
      ¬OneHandler defaultConfig.ttl x.1 := by
  decide

end FestivalPlanner.Idempotency
