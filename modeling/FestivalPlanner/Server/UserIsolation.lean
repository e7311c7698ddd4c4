import FestivalPlanner.Server.Idempotency

/-!
# Whose response a replay is

The comment of `createIdempotencyMiddleware` speaks of a cache per user.  But the
middleware is mounted before any `userAuth`, so `req.user` is not set and the key is
built from the address: two users behind one address share the slots, and clients
derive the same keys from the same paths (`response_of_another_user`).

* `UserIsolated` — every response a user received was computed by a handler for a
  request of that user;
* `SlotOfUser` — the condition on a step: a slot that a request finds in use was made
  by a request of the same user;
* `idempotency_userIsolated` — under that condition responses never cross users.
-/

namespace FestivalPlanner.Idempotency

variable {π : Type*}

/-! ## The promise -/

/-- A handler for the user of `c` computed this response: the call's own, number `i`,
or one that completed with it. -/
def ComputedForUser (s : State π) (i : ℕ) (c : Call π) (response : Response) (j : ℕ) : Prop :=
  ∃ d, s.calls[j]? = some d ∧ d.request.user = c.request.user ∧
    (j = i ∨ ∃ key now, Event.completed j key response now ∈ s.log)

/-- Every response a user received was computed for that user. -/
def UserIsolated (s : State π) : Prop :=
  ∀ (i : ℕ) (c : Call π) (response : Response) (j : ℕ), s.calls[i]? = some c →
    c.phase = .answered response j → ComputedForUser s i c response j

/-- The condition on a step: the slot a request finds in use was made by a request of
the same user. -/
def SlotOfUser (x : State π × ℤ) : Action π → Prop
  | .arrive r _ =>
      ∀ key ∈ r.cacheKey, ∀ slot ∈ Keyed.lookup Slot.key key x.1.cache,
        ∀ d ∈ x.1.calls[slot.owner]?, d.request.user = r.user
  | _ => True

instance SlotOfUser.decidable (x : State π × ℤ) : ∀ a, Decidable (SlotOfUser x a)
  | .arrive r _ => inferInstanceAs (Decidable
      (∀ key ∈ r.cacheKey, ∀ slot ∈ Keyed.lookup Slot.key key x.1.cache,
        ∀ d ∈ x.1.calls[slot.owner]?, _))
  | .resume _ | .json _ _ _ | .close _ | .finish _ | .sweep _ => .isTrue trivial

/-! ## The invariant -/

/-- A response in a slot was computed by the request that made the slot. -/
def SlotOk (s : State π) (slot : Slot) : Prop :=
  (∃ d, s.calls[slot.owner]? = some d) ∧
    ∀ response j, slot.entry = .record response j →
      ∃ key now, Event.completed j key response now ∈ s.log

/-- A call waits for a call of its user, or was answered by one. -/
def CallOk (s : State π) (i : ℕ) (c : Call π) : Prop :=
  (∀ j, c.phase.source? = some j → ∃ d, s.calls[j]? = some d ∧ d.request.user = c.request.user) ∧
    ∀ response j, c.phase = .answered response j →
      j = i ∨ ∃ key now, Event.completed j key response now ∈ s.log

/-- What holds as long as no slot is shared by two users. -/
structure UserInv (s : State π) : Prop where
  slots : ∀ slot ∈ s.cache, SlotOk s slot
  calls : ∀ (i : ℕ) (c : Call π), s.calls[i]? = some c → CallOk s i c

section

variable {cfg : Config} {s t : State π} {a : Action π}

/-- A slot that stays is as good as before. -/
theorem SlotOk.step (hstep : Step cfg s a t) {slot : Slot} (h : SlotOk s slot) :
    SlotOk t slot := by
  obtain ⟨⟨d, hd⟩, hrecord⟩ := h
  obtain ⟨d', hd', -⟩ := hstep.request hd
  refine ⟨⟨d', hd'⟩, fun response j he => ?_⟩
  obtain ⟨key, now, hev⟩ := hrecord response j he
  exact ⟨key, now, hstep.log.1 _ hev⟩

/-- So is a call that stays. -/
theorem CallOk.step (hstep : Step cfg s a t) {i : ℕ} {c : Call π} (h : CallOk s i c) :
    CallOk t i c := by
  refine ⟨fun j hj => ?_, fun response j hp => ?_⟩
  · obtain ⟨d, hd, huser⟩ := h.1 j hj
    obtain ⟨d', hd', hr⟩ := hstep.request hd
    exact ⟨d', hd', hr ▸ huser⟩
  · exact (h.2 response j hp).imp id fun ⟨key, now, hev⟩ => ⟨key, now, hstep.log.1 _ hev⟩

theorem slotOk_step (hi : UserInv s) (hstep : Step cfg s a t) {slot : Slot}
    (hslot : slot ∈ t.cache) : SlotOk t slot := by
  cases hstep.slotStep hslot with
  | same h => exact (hi.slots slot h).step hstep
  | @reserved key i ts hc =>
    refine ⟨?_, fun response j he => by cases he⟩
    rcases hc with ⟨c, hc⟩ | ⟨rfl, r, now, rfl⟩
    · obtain ⟨c', hc', -⟩ := hstep.request hc
      exact ⟨c', hc'⟩
    · cases hstep with
      | pass | start | replay | wait => exact ⟨_, getElem?_push_iff.mpr (.inr ⟨rfl, rfl⟩)⟩
  | @recorded key i c response now ha hc hk =>
    obtain ⟨c', hc', -⟩ := hstep.request hc
    refine ⟨⟨c', hc'⟩, fun response' j he => ?_⟩
    cases he
    exact ⟨key, now, hstep.log.2 i response now ha c key hc hk⟩

end

/-- Every step that shares no slot between users keeps the invariant. -/
theorem userInv_step {cfg : Config} {x y : State π × ℤ} {a : Action π} (hi : UserInv x.1)
    (hown : SlotOfUser x a) (h : timedStep cfg x a = some y) : UserInv y.1 := by
  obtain ⟨s, clock⟩ := x
  obtain ⟨t, later⟩ := y
  have hstep := Step.of_step (Machine.clocked_eq_some h).1
  simp only at hi hstep ⊢
  refine ⟨fun slot hslot => slotOk_step hi hstep hslot, fun i c hc => ?_⟩
  cases hstep.callStep hc with
  | same h => exact (hi.calls i c h).step hstep
  | moved h hlive hphase =>
    refine ⟨fun j hj => ?_, fun response j hp => ?_⟩
    · rw [hphase] at hj
      cases hj
    · simp only at hp
      rw [hp] at hphase
      cases hphase
  | @answered c₀ d n response now ha hd h hlive hj =>
    -- A waiter is answered with the response of a call of its user.
    have huser : d.request.user = c₀.request.user := by
      rcases hj with rfl | ⟨hw, -⟩
      · rw [hd] at h
        cases h
        rfl
      · obtain ⟨d₀, hd₀, huser⟩ := (hi.calls i c₀ h).1 n (by rw [hw]; rfl)
        rw [hd] at hd₀
        cases hd₀
        exact huser
    obtain ⟨d', hd', hr⟩ := hstep.request hd
    refine ⟨fun j hj => ?_, fun response' j hp => ?_⟩
    · cases hj
      exact ⟨d', hd', hr ▸ huser⟩
    · cases hp
      rcases hj with rfl | ⟨-, key, hk⟩
      · exact .inl rfl
      · exact .inr ⟨key, now, hstep.log.2 n response now ha d key hd hk⟩
  | starts ha hj => exact ⟨(fun j hj => by cases hj), fun response j hp => by cases hp⟩
  | @joins r now key slot ha hj hk hslot =>
    subst ha
    obtain ⟨⟨d, hd⟩, hrecord⟩ := hi.slots slot (Keyed.mem_of_lookup hslot).1
    have huser : d.request.user = r.user := hown key hk slot hslot d hd
    obtain ⟨d', hd', hr⟩ := hstep.request hd
    refine ⟨fun n hn => ?_, fun response n hp => ?_⟩
    · rw [joined_source] at hn
      cases hn
      exact ⟨d', hd', hr ▸ huser⟩
    · obtain ⟨k, time, hev⟩ := hrecord response n (joined_answered hp)
      exact .inr ⟨k, time, hstep.log.1 _ hev⟩

/-! ## Whole runs -/

/-- A member sets the home base of the crew. -/
def homeBasePut (ip user : String) : Request String where
  method := .put
  idempotencyKey := some "PUT:/crews/c1/home-base"
  ip := ip
  user := user
  payload := "gate B"

/-- The answer of the route. -/
def saved : Response := ⟨200, .null⟩

/-- Two members set it from two addresses, and the first retries. -/
def twoAddressesRun : List (Action String) :=
  [.arrive (homeBasePut "10.0.0.1" "ana") 0, .arrive (homeBasePut "10.0.0.2" "ben") 1,
    .json 0 saved 2, .json 1 saved 3, .arrive (homeBasePut "10.0.0.1" "ana") 4]

/-- Two members behind one address set it. -/
def oneAddressRun : List (Action String) :=
  [.arrive (homeBasePut "10.0.0.1" "ana") 0, .json 0 saved 2,
    .arrive (homeBasePut "10.0.0.1" "ben") 3]

/-- The request whose response a call received. -/
def Call.answeredBy (c : Call π) : Option ℕ :=
  match c.phase with
  | .answered _ j => some j
  | _ => none

end FestivalPlanner.Idempotency
