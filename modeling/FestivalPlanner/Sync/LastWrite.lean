import FestivalPlanner.Sync.WriteOrder

/-!
# The last write wins

What the queue and the middleware promise together: once the queue is drained the
resource holds the last write the client made, and no replay is answered with the
response to another request.

The client derives the key of a write from its method and path, so that repeated
writes coalesce; the server caches by that key, with no look at the request and with
errors too.  A second write within the TTL of the first gets the response of the
first, and the drain drops it as delivered (`last_write_not_applied`).

* `LastWriteWins` — the promise;
* `Orderly` — the condition on a step: a replay finds its slot free or made by an
  attempt of the same write, no request overtakes another, and the last write is not
  dropped;
* `ServerInv`, `DrainInv`, `Present` — the invariants beside `Order`: on the responses,
  on the request the drain awaits, and on the last write;
* `replay_lastWriteWins` — under that condition the promise is kept, for any sequence
  of writes and any behaviour of the network.
-/

namespace FestivalPlanner.Replay

open Js OfflineQueue List Keyed

/-! ## The promise -/

/-- The queue is drained, and no direct write is awaited. -/
structure Quiescent (w : World) : Prop where
  idle : w.client.pc = .idle
  drained : w.client.queue = []
  noDirect : ∀ d ∈ w.directs, d.waiting = false

/-- The resource holds the last write once all is quiet, and a replay is answered with
the response to a request with its own method, path and body. -/
structure LastWriteWins (w : World) : Prop where
  applied : Quiescent w → ∀ l, w.latest = some l → ∃ v, w.value = some v ∧ SameWrite v l
  replayed : ∀ (i : ℕ) (c : Idempotency.Call (Option QueuedMutation)) (e : QueuedMutation)
    (response : Idempotency.Response) (j : ℕ), w.server.calls[i]? = some c →
    c.request.payload = some e → c.phase = .answered response j →
    ∃ d e', w.server.calls[j]? = some d ∧ d.request.payload = some e' ∧
      e'.method = e.method ∧ e'.url = e.url ∧ e'.body = e.body

/-! ## The condition on a step -/

/-- The last write, when it is queued, is younger than the staleness limit. -/
def LatestFresh (w : World) (now : ℤ) : Prop :=
  ∀ q ∈ w.client.queue, w.isLatest q = true → isFresh now q = true

/-- The drain does not give up the last write. -/
def KeepsLatest (w : World) : Pc → Prop
  | .settling m (.error status _) _ => givesUp m status = true → w.isLatest m = false
  | _ => True

/-- The slot a replay finds in use was made by an attempt of the same write, with the
same path. -/
def SlotOfWrite (user ip : String) (w : World) (m : QueuedMutation) : Prop :=
  ∀ key ∈ (replayRequest user ip m).cacheKey,
    ∀ slot ∈ lookup Idempotency.Slot.key key w.server.cache,
      ∃ d ∈ w.server.calls[slot.owner]?, ∃ e ∈ d.request.payload,
        e.serial = m.serial ∧ e.url = m.url

/-- The condition on a step of the drain. -/
def OrderlyDrain (w : World) : OfflineQueue.Action → Prop
  | .settle now =>
      LatestFresh w now ∧ DropsNoOther w.client now w.client.pc ∧ KeepsLatest w w.client.pc
  | .start _ now | .rewrite now => LatestFresh w now
  | .enqueue _ _ _ | .send | .reply _ _ | .record _ | .finish => True

/-- The condition on a step. -/
def Orderly (user : String) (w : World) : Action → Prop
  | .drain a => OrderlyDrain w a
  | .send => SendsInOrder w w.client.pc
  | .arrive k ip _ => ∀ p ∈ w.wire[k]?, SlotOfWrite user ip w p.1
  | .write _ _ => w.client.pc.isIdle = true ∧ w.client.queue = [] ∧ underWay w = []
  | .refuse d => ∀ x ∈ w.directs[d]?, w.isLatest x.entry = false
  | .queueDirect d _ => ∀ x ∈ w.directs[d]?, w.isLatest x.entry = true
  | .enqueue _ _ _ | .refresh | .lose _ | .receive _ | .fail _ _ | .commit _ | .server _ | .land _
  | .loseDirect _ | .succeed _ => True

instance (w : World) (now : ℤ) : Decidable (LatestFresh w now) :=
  inferInstanceAs (Decidable (∀ q ∈ w.client.queue, w.isLatest q = true → isFresh now q = true))

instance KeepsLatest.decidable (w : World) : ∀ pc, Decidable (KeepsLatest w pc) := fun pc => by
  unfold KeepsLatest
  split <;> infer_instance

instance (user ip : String) (w : World) (m : QueuedMutation) :
    Decidable (SlotOfWrite user ip w m) :=
  inferInstanceAs (Decidable (∀ key ∈ (replayRequest user ip m).cacheKey,
    ∀ slot ∈ lookup Idempotency.Slot.key key w.server.cache,
      ∃ d ∈ w.server.calls[slot.owner]?, ∃ e ∈ d.request.payload,
        e.serial = m.serial ∧ e.url = m.url))

instance OrderlyDrain.decidable (w : World) : ∀ a, Decidable (OrderlyDrain w a)
  | .settle now => inferInstanceAs (Decidable
      (LatestFresh w now ∧ DropsNoOther w.client now w.client.pc ∧ KeepsLatest w w.client.pc))
  | .start _ now | .rewrite now => inferInstanceAs (Decidable (LatestFresh w now))
  | .enqueue _ _ _ | .send | .reply _ _ | .record _ | .finish => .isTrue trivial

instance Orderly.decidable (user : String) (w : World) : ∀ a, Decidable (Orderly user w a)
  | .drain a => inferInstanceAs (Decidable (OrderlyDrain w a))
  | .send => inferInstanceAs (Decidable (SendsInOrder w w.client.pc))
  | .arrive k ip _ => inferInstanceAs (Decidable (∀ p ∈ w.wire[k]?, SlotOfWrite user ip w p.1))
  | .write _ _ => inferInstanceAs (Decidable (_ ∧ _ ∧ underWay w = []))
  | .refuse d => inferInstanceAs (Decidable (∀ x ∈ w.directs[d]?, w.isLatest x.entry = false))
  | .queueDirect d _ => inferInstanceAs (Decidable
      (∀ x ∈ w.directs[d]?, w.isLatest x.entry = true))
  | .enqueue _ _ _ | .refresh | .lose _ | .receive _ | .fail _ _ | .commit _ | .server _ | .land _
  | .loseDirect _ | .succeed _ => .isTrue trivial

/-! ## The responses -/

/-- Request number `j` is an attempt of this write, with the same path. -/
def AttemptOf (s : Idempotency.State (Option QueuedMutation)) (e : QueuedMutation) (j : ℕ) :
    Prop :=
  ∃ d e', s.calls[j]? = some d ∧ d.request.payload = some e' ∧ e'.serial = e.serial ∧ e'.url = e.url

/-- A slot names a request, and a success it holds follows a write by the handler. -/
def SlotOk (s : Idempotency.State (Option QueuedMutation)) (committed : List ℕ)
    (slot : Idempotency.Slot) : Prop :=
  ∃ d, s.calls[slot.owner]? = some d ∧
    ∀ response j, slot.entry = .record response j → isOk response = true →
      d.request.payload.isSome = true → j ∈ committed

/-- A replay waits for an attempt of its own write, or has the response to one; a
success follows a write by the handler. -/
def CallOk (s : Idempotency.State (Option QueuedMutation)) (committed : List ℕ)
    (c : Idempotency.Call (Option QueuedMutation)) : Prop :=
  ∀ e, c.request.payload = some e →
    (∀ j, c.phase.source? = some j → AttemptOf s e j) ∧
      ∀ response j, c.phase = .answered response j → isOk response = true → j ∈ committed

/-- What holds of the server as long as the slots are not shared by two writes. -/
structure ServerInv (s : Idempotency.State (Option QueuedMutation)) (committed : List ℕ) :
    Prop where
  slots : ∀ slot ∈ s.cache, SlotOk s committed slot
  calls : ∀ c ∈ s.calls, CallOk s committed c
  known : ∀ j ∈ committed, ∃ c, s.calls[j]? = some c

variable {c : Idempotency.Call (Option QueuedMutation)} {user : String} {w : World}

section Server

variable {cfg : Idempotency.Config} {s t : Idempotency.State (Option QueuedMutation)}
  {committed : List ℕ} {a : Idempotency.Action (Option QueuedMutation)}

theorem AttemptOf.step (hstep : Idempotency.Step cfg s a t) {e : QueuedMutation} {j : ℕ}
    (h : AttemptOf s e j) : AttemptOf t e j := by
  obtain ⟨d, e', hd, hp, hsame⟩ := h
  obtain ⟨d', hd', hr⟩ := hstep.request hd
  exact ⟨d', e', hd', by rw [hr, hp], hsame⟩

theorem SlotOk.step (hstep : Idempotency.Step cfg s a t) {slot : Idempotency.Slot}
    (h : SlotOk s committed slot) : SlotOk t committed slot := by
  obtain ⟨d, hd, hrecord⟩ := h
  obtain ⟨d', hd', hr⟩ := hstep.request hd
  exact ⟨d', hd', fun response j he hok hp => hrecord response j he hok (hr ▸ hp)⟩

theorem CallOk.step (hstep : Idempotency.Step cfg s a t) (h : CallOk s committed c) :
    CallOk t committed c :=
  fun e he => ⟨fun j hj => ((h e he).1 j hj).step hstep, (h e he).2⟩

/-- A handler that has written the resource is one more to answer with success. -/
theorem ServerInv.commit {i : ℕ} (hi : ServerInv s committed) (hc : s.calls[i]? = some c) :
    ServerInv s (committed ++ [i]) where
  slots slot hslot := by
    obtain ⟨d, hd, hrecord⟩ := hi.slots slot hslot
    exact ⟨d, hd, fun response j he hok hp =>
      mem_append_left _ (hrecord response j he hok hp)⟩
  calls c hc e he :=
    ⟨(hi.calls c hc e he).1, fun response j hp hok =>
      mem_append_left _ ((hi.calls c hc e he).2 response j hp hok)⟩
  known j hj := by
    rcases mem_append.mp hj with hj | hj
    · exact hi.known j hj
    · exact ⟨c, mem_singleton.mp hj ▸ hc⟩

/-- Every step of the server keeps its invariant: successes follow writes, and a
replay that joins a slot joins an attempt of its own write. -/
theorem ServerInv.step (hi : ServerInv s committed) (hstep : Idempotency.Step cfg s a t)
    (hjson : ∀ i response now c, a = .json i response now → s.calls[i]? = some c →
      c.request.payload.isSome = true → isOk response = true → i ∈ committed)
    (hjoin : ∀ r now e key slot, a = .arrive r now → r.payload = some e →
      r.cacheKey = some key → lookup Idempotency.Slot.key key s.cache = some slot →
      AttemptOf s e slot.owner) : ServerInv t committed where
  slots slot hslot := by
    cases hstep.slotStep hslot with
    | same h => exact (hi.slots slot h).step hstep
    | @reserved key i ts hc =>
      have hnew : ∃ d, t.calls[i]? = some d := by
        rcases hc with ⟨c, hc⟩ | ⟨rfl, r, now, rfl⟩
        · obtain ⟨c', hc', -⟩ := hstep.request hc
          exact ⟨c', hc'⟩
        · cases hstep with
          | pass | start | replay | wait =>
            exact ⟨_, Idempotency.getElem?_push_iff.mpr (.inr ⟨rfl, rfl⟩)⟩
      obtain ⟨d, hd⟩ := hnew
      exact ⟨d, hd, fun response j he => by cases he⟩
    | @recorded key i c response now ha hc hk =>
      obtain ⟨c', hc', hr⟩ := hstep.request hc
      refine ⟨c', hc', fun response' j he hok hp => ?_⟩
      cases he
      exact hjson i response now c ha hc (hr ▸ hp) hok
  calls c hc := by
    obtain ⟨j, hj⟩ := mem_iff_getElem?.mp hc
    cases hstep.callStep hj with
    | same h => exact (hi.calls c (mem_of_getElem? h)).step hstep
    | @moved c₀ phase h hlive hphase =>
      refine fun e he => ⟨fun i hs => ?_, fun response i hp => ?_⟩
      · rw [hphase] at hs
        cases hs
      · rw [show phase = .answered response i from hp] at hphase
        cases hphase
    | @answered c₀ d i response now ha hd h hlive hown =>
      intro e he
      -- A waiter gets the response to an attempt of its own write.
      have hattempt : AttemptOf s e i := by
        rcases hown with rfl | ⟨hw, -⟩
        · rw [hd] at h
          cases h
          exact ⟨_, e, hd, he, rfl, rfl⟩
        · exact (hi.calls c₀ (mem_of_getElem? h) e he).1 i (by rw [hw]; rfl)
      refine ⟨fun n hn => ?_, fun response' n hp hok => ?_⟩
      · cases hn
        exact hattempt.step hstep
      · cases hp
        obtain ⟨d', e', hd', hp', -⟩ := hattempt
        exact hjson i response now d' ha hd' (by rw [hp']; rfl) hok
    | starts ha hj' => exact fun e he => ⟨(fun i hs => by cases hs), fun response i hp => by cases hp⟩
    | @joins r now key slot ha hj' hk hslot =>
      intro e he
      have hattempt := hjoin r now e key slot ha he hk hslot
      obtain ⟨d, hd, hrecord⟩ := hi.slots slot (mem_of_lookup hslot).1
      refine ⟨fun n hn => ?_, fun response n hp hok => ?_⟩
      · rw [Idempotency.joined_source] at hn
        cases hn
        exact hattempt.step hstep
      · obtain ⟨d', e', hd', hp', -⟩ := hattempt
        rw [hd] at hd'
        cases hd'
        exact hrecord response n (Idempotency.joined_answered hp) hok (by rw [hp']; rfl)
  known j hj := by
    obtain ⟨c, hc⟩ := hi.known j hj
    obtain ⟨c', hc', -⟩ := hstep.request hc
    exact ⟨c', hc'⟩

end Server

/-- Every step that meets the condition keeps the server's invariant. -/
theorem serverInv_step {cfg : Idempotency.Config} {t : World} {a : Action}
    (hi : ServerInv w.server w.committed) (hord : Orderly user w a) (hstep : Step cfg user w a t) :
    ServerInv t.server t.committed := by
  cases hstep with
  | arrive k m current ip now s hk hstep =>
    refine hi.step hstep (fun i response now c h => by cases h) ?_
    intro r now' e key slot ha he hkey hslot
    cases ha
    cases he
    obtain ⟨d, hd, e', he', hsame⟩ := hord (m, current) hk key hkey slot hslot
    exact ⟨d, e', hd, he', hsame⟩
  | commit i c m hc hp hm => exact hi.commit hc
  | server a s hmay hstep =>
    refine hi.step hstep ?_ ?_
    · rintro i response now c rfl hc hp hok
      obtain ⟨e, he⟩ := Option.isSome_iff_exists.mp hp
      simpa [serverMay, hc, he, hok] using hmay
    · rintro r now e key slot rfl he
      simp [serverMay, he] at hmay
  | queueDirect d x now hd t ht =>
    subst ht
    exact hi
  | enqueue | drain | send | refresh | lose | receive | fail | write | land | loseDirect | succeed
  | refuse => exact hi

/-! ## The request the drain awaits -/

/-- What the drain awaits is a request with the entry it has in flight, and an entry
settled as delivered was written. -/
structure DrainInv (w : World) : Prop where
  awaits : ∀ n, w.awaited = some n → ∃ m rest c, w.client.pc = .inFlight m rest ∧
    w.server.calls[n]? = some c ∧ c.request.payload = some m
  marks : ∀ m, (m, true) ∈ w.wire → ∃ rest, w.client.pc = .inFlight m rest
  settles : ∀ m v rest, w.client.pc = .settling m (.ok v) rest →
    ∃ e, Committed w e ∧ e.serial = m.serial

/-- A step that leaves the drain where it is and sends nothing for it. -/
theorem DrainInv.mono {t : World} (hi : DrainInv w) (hpc : t.client.pc = w.client.pc)
    (hawaited : t.awaited = w.awaited) (hwire : ∀ p ∈ t.wire, p ∈ w.wire)
    (hreq : ∀ (j : ℕ) c, w.server.calls[j]? = some c →
      ∃ c', t.server.calls[j]? = some c' ∧ c'.request = c.request)
    (hcom : ∀ j ∈ w.committed, j ∈ t.committed) : DrainInv t where
  awaits n hn := by
    obtain ⟨m, rest, c, hin, hc, hp⟩ := hi.awaits n (hawaited ▸ hn)
    obtain ⟨c', hc', hr⟩ := hreq n c hc
    exact ⟨m, rest, c', hpc.trans hin, hc', hr ▸ hp⟩
  marks m hm := by
    obtain ⟨rest, hin⟩ := hi.marks m (hwire _ hm)
    exact ⟨rest, hpc.trans hin⟩
  settles m v rest h := by
    obtain ⟨e, he, hs⟩ := hi.settles m v rest (hpc.symm.trans h)
    exact ⟨e, he.mono hreq hcom, hs⟩

/-- A drain that is not waiting for a reply awaits no request. -/
theorem DrainInv.awaited_eq_none (hi : DrainInv w)
    (hpc : ∀ m rest, w.client.pc ≠ .inFlight m rest) : w.awaited = none := by
  cases h : w.awaited with
  | none => rfl
  | some n =>
    obtain ⟨m, rest, -, hin, -⟩ := hi.awaits n h
    exact absurd hin (hpc m rest)

/-- A successful response to the request the drain awaits follows a write of the entry
in flight. -/
theorem committed_of_response {m : QueuedMutation} {rest : List QueuedMutation}
    {response : Idempotency.Response} (hi : DrainInv w) (hs : ServerInv w.server w.committed)
    (hpc : w.client.pc = .inFlight m rest) (hr : w.response = some response)
    (hok : isOk response = true) : ∃ e, Committed w e ∧ e.serial = m.serial := by
  obtain ⟨n, c, j, hn, hc, hp⟩ := response_eq_some.mp hr
  obtain ⟨m', rest', c', hin, hc', hpay⟩ := hi.awaits n hn
  rw [hpc] at hin
  cases hin
  rw [hc] at hc'
  cases hc'
  have hcall := hs.calls c (mem_of_getElem? hc) m hpay
  obtain ⟨d, e, hd, he, hserial, -⟩ := hcall.1 j (by rw [hp]; rfl)
  exact ⟨e, ⟨j, hcall.2 response j hp hok, d, hd, he⟩, hserial⟩

/-- Every step keeps the drain's invariant. -/
theorem drainInv_step {cfg : Idempotency.Config} {t : World} {a : Action} (hi : DrainInv w)
    (hs : ServerInv w.server w.committed) (hstep : Step cfg user w a t) : DrainInv t := by
  have hsame : ∀ (j : ℕ) c, w.server.calls[j]? = some c →
      ∃ c', w.server.calls[j]? = some c' ∧ c'.request = c.request := fun j c hc => ⟨c, hc, rfl⟩
  cases hstep with
  | enqueue m createdAt now =>
    exact hi.mono (by simp [queueWrite]) rfl (fun _ h => h) hsame (fun _ h => h)
  | drain a c hlocal hstep =>
    rcases pc_of_isLocal hlocal hstep with rfl | hpc
    · exact hi
    have hnone := hi.awaited_eq_none fun m rest => (hpc m rest).1
    refine ⟨fun n hn => ?_, fun m hm => ?_, fun m v rest h => ?_⟩
    · rw [show w.awaited = some n from hn] at hnone
      cases hnone
    · obtain ⟨rest, hin⟩ := hi.marks m hm
      exact absurd hin (hpc m rest).1
    · exact absurd h ((hpc m rest).2.2 _)
  | send m rest hpc =>
    refine ⟨(fun n hn => by cases hn), fun m' hm' => ?_, (fun m' v rest' h => by cases h)⟩
    rcases mem_append.mp hm' with hm' | hm'
    · obtain ⟨rest', hin⟩ := hi.marks m' hm'
      rw [hpc] at hin
      cases hin
    · cases mem_singleton.mp hm'
      exact ⟨rest, rfl⟩
  | refresh m rest hpc =>
    refine ⟨(fun n hn => by cases hn), fun m' hm' => ?_, hi.settles⟩
    rcases mem_append.mp hm' with hm' | hm'
    · exact hi.marks m' hm'
    · cases mem_singleton.mp hm'
      exact ⟨rest, hpc⟩
  | arrive k m current ip now s hk hstep =>
    have hwire : ∀ p ∈ w.wire.eraseIdx k, p ∈ w.wire := fun p hp => mem_of_mem_eraseIdx hp
    cases current with
    | false => exact hi.mono rfl rfl hwire (fun j c hc => hstep.request hc) (fun _ h => h)
    | true =>
      obtain ⟨rest, hin⟩ := hi.marks m (mem_of_getElem? hk)
      refine ⟨fun n hn => ?_, fun m' hm' => hi.marks m' (hwire _ hm'), fun m' v rest' h => ?_⟩
      · cases hn
        cases hstep with
        | pass | start | replay | wait =>
          exact ⟨m, rest, _, hin, Idempotency.getElem?_push_iff.mpr (.inr ⟨rfl, rfl⟩), rfl⟩
      · rw [show w.client.pc = .settling m' (.ok v) rest' from h] at hin
        cases hin
  | lose k => exact hi.mono rfl rfl (fun p hp => mem_of_mem_eraseIdx hp) hsame (fun _ h => h)
  | receive m rest response offline c hpc hr hstep =>
    refine ⟨(fun n hn => by cases hn), fun m' hm' => ?_, fun m' v rest' h => ?_⟩
    · cases (mem_forget.mp hm').1
    · obtain ⟨m₀, rest₀, hin, hto | hto, -⟩ := pc_of_reply hstep
      · rw [show c.pc = .settling m' (.ok v) rest' from h] at hto
        cases hto
      · rw [show c.pc = .settling m' (.ok v) rest' from h] at hto
        rw [hpc] at hin
        cases hin
        injection hto with hm hrep hrest
        subst hm
        by_cases hok : isOk response = true
        · exact committed_of_response (w := w) hi hs hpc hr hok
        · rw [replyOf, if_neg hok] at hrep
          cases hrep
  | fail message offline c hstep =>
    refine ⟨(fun n hn => by cases hn), fun m' hm' => ?_, fun m' v rest' h => ?_⟩
    · cases (mem_forget.mp hm').1
    · obtain ⟨m₀, rest₀, -, hto | hto, -⟩ := pc_of_reply hstep
      · rw [show c.pc = .settling m' (.ok v) rest' from h] at hto
        cases hto
      · rw [show c.pc = .settling m' (.ok v) rest' from h] at hto
        cases hto
  | commit i c m hc hp hm =>
    exact hi.mono rfl rfl (fun _ h => h) hsame (fun j hj => mem_append_left _ hj)
  | server a s hmay hstep =>
    exact hi.mono rfl rfl (fun _ h => h) (fun j c hc => hstep.request hc) (fun _ h => h)
  | queueDirect d x now hd t ht =>
    subst ht
    exact hi.mono (by simp [queueWrite]) rfl (fun _ h => h) hsame (fun _ h => h)
  | write | land | loseDirect | succeed | refuse =>
    exact hi.mono rfl rfl (fun _ h => h) hsame (fun _ h => h)

/-! ## The order of the writes -/

/-- Every step that meets the condition keeps the order of the writes. -/
theorem order_step {cfg : Idempotency.Config} {t : World} {a : Action} (hi : Order w)
    (hs : ServerInv w.server w.committed) (hord : Orderly user w a) (hstep : Step cfg user w a t) :
    Order t := by
  cases hstep with
  | enqueue m createdAt now => exact hi.queueWrite m createdAt now
  | drain a c hlocal hstep => exact hi.moves (Parts.drain hlocal hstep).moves
  | send m rest hpc => exact hi.send hpc hord
  | refresh m rest hpc =>
    refine hi.moves (Parts.moves { Parts.refl w with wire := fun p hp => ?_ })
    rcases mem_append.mp hp with hp | hp
    · exact live_of_mem_wire hp
    · cases mem_singleton.mp hp
      exact .inl ⟨rest, hpc⟩
  | arrive k m current ip now s hk hstep => exact hi.moves (Parts.arrive hs.known hk hstep).moves
  | lose k =>
    exact hi.moves (Parts.moves { Parts.refl w with
      wire := fun p hp => live_of_mem_wire (mem_of_mem_eraseIdx hp) })
  | receive m rest response offline c hpc hr hstep => exact hi.moves (Parts.reply hstep).moves
  | fail message offline c hstep => exact hi.moves (Parts.reply hstep).moves
  | commit i c m hc hp hm => exact hi.commit hc hp hm
  | server a s hmay hstep => exact hi.moves (Parts.server hmay hstep).moves
  | write m now => exact hi.writeDirect m now hord.1 hord.2.1 hord.2.2
  | land d x hd hnet => exact hi.land hd hnet
  | loseDirect d x hd =>
    exact hi.moves
      (Parts.setDirect { x with onNetwork := false } hd rfl (fun h => by cases h) id).moves
  | succeed d x hd hland =>
    exact hi.moves (Parts.setDirect { x with waiting := false } hd rfl id id).moves
  | refuse d x hd =>
    exact hi.moves (Parts.setDirect { x with onNetwork := false, waiting := false } hd rfl
      (fun h => by cases h) id).moves
  | queueDirect d x now hd t ht =>
    have hlast : w.isLatest x.entry = true := hord x hd
    rw [if_pos hlast, ht]
    have hw := hi.moves (Parts.setDirect { x with waiting := false } hd rfl id id).moves
    exact hw.queueWrite x.entry.toMutation none now

/-! ## The last write is somewhere -/

/-- The last write is queued, awaited, or executed. -/
def Present (w : World) : Prop :=
  ∀ l, w.latest = some l → (∃ q ∈ w.client.queue, q.serial = l.serial) ∨
    (∃ d ∈ w.directs, d.waiting = true ∧ d.entry.serial = l.serial) ∨
      ∃ e, Done w e ∧ e.serial = l.serial

/-- A step that leaves the queue and the direct writes alone. -/
theorem Present.mono {t : World} (hi : Present w) (hlatest : t.latest = w.latest)
    (hqueue : t.client.queue = w.client.queue) (hdirects : t.directs = w.directs)
    (hdone : ∀ e, Committed w e → Committed t e) : Present t := by
  intro l hl
  rcases hi l (hlatest ▸ hl) with h | h | ⟨e, he | he, hs⟩
  · exact .inl (hqueue ▸ h)
  · exact .inr (.inl (hdirects ▸ h))
  · exact .inr (.inr ⟨e, .inl (hdone e he), hs⟩)
  · exact .inr (.inr ⟨e, .inr (hdirects ▸ he), hs⟩)

/-- Changing the outcome of a direct write: when it is awaited no longer, it is
executed or was not the last write. -/
theorem Present.setDirect {d : ℕ} {x y : Direct} {value : Option QueuedMutation} (hi : Present w)
    (hd : w.directs[d]? = some x) (hentry : y.entry = x.entry)
    (hland : x.landed = true → y.landed = true)
    (hwait : x.waiting = true → y.waiting = true ∨ y.landed = true ∨ w.isLatest x.entry = false) :
    Present { w with directs := w.directs.set d y, value := value } := by
  have hother : ∀ z ∈ w.directs, z ∈ w.directs.set d y ∨ z = x := by
    intro z hz
    obtain ⟨k, hk⟩ := mem_iff_getElem?.mp hz
    by_cases hkd : k = d
    · subst hkd
      rw [hk] at hd
      exact .inr (Option.some.inj hd)
    · exact .inl (mem_of_getElem? (getElem?_set_ne (Ne.symm hkd) ▸ hk))
  have hy : y ∈ w.directs.set d y := by
    obtain ⟨hlt, -⟩ := List.getElem?_eq_some_iff.mp hd
    exact mem_set hlt y
  have hdone : ∀ e, Done w e → Done { w with directs := w.directs.set d y, value := value } e := by
    rintro e (he | ⟨z, hz, hzl, he⟩)
    · exact .inl he
    · rcases hother z hz with hz | rfl
      · exact .inr ⟨z, hz, hzl, he⟩
      · exact .inr ⟨y, hy, hland hzl, hentry.trans he⟩
  rintro l (hl : w.latest = some l)
  rcases hi l hl with h | ⟨z, hz, hzw, hs⟩ | ⟨e, he, hs⟩
  · exact .inl h
  · rcases hother z hz with hz | rfl
    · exact .inr (.inl ⟨z, hz, hzw, hs⟩)
    · rcases hwait hzw with hw | hw | hw
      · exact .inr (.inl ⟨y, hy, hw, hentry ▸ hs⟩)
      · exact .inr (.inr ⟨z.entry, .inr ⟨y, hy, hw, hentry⟩, hs⟩)
      · rw [(isLatest_iff hl).mpr hs] at hw
        cases hw
  · exact .inr (.inr ⟨e, hdone e he, hs⟩)

/-- A write that was just queued is in the queue. -/
theorem present_queueWrite (m : Mutation) (createdAt : Option ℤ) (now : ℤ) (w : World) :
    Present (queueWrite m createdAt now w) := by
  intro l hl
  cases hl
  refine .inl ⟨newEntry m createdAt now w.client, ?_, rfl⟩
  rw [show (queueWrite m createdAt now w).client.queue = _ from
    enqueueMutation_queue m createdAt now w.client]
  exact mem_upsert_self _ _

/-- A local step of the drain drops the last write only when it was executed. -/
theorem Present.drain {a : OfflineQueue.Action} {c : OfflineQueue.State} (hi : Present w)
    (hd : DrainInv w) (hord : OrderlyDrain w a) (hlocal : isLocal a = true)
    (hstep : OfflineQueue.Step w.client a c) : Present { w with client := c } := by
  rintro l (hl : w.latest = some l)
  have hstays : ∀ {now : ℤ}, LatestFresh w now → ∀ q ∈ w.client.queue, q.serial = l.serial →
      q ∈ w.client.queue.filter (isFresh now) :=
    fun hfresh q hq hs => mem_filter.mpr ⟨hq, hfresh q hq ((isLatest_iff hl).mpr hs)⟩
  have hqueued : (∃ q ∈ w.client.queue, q.serial = l.serial) →
      (∃ q ∈ c.queue, q.serial = l.serial) ∨ ∃ e, Done w e ∧ e.serial = l.serial := by
    rintro ⟨q, hq, hs⟩
    cases hstep with
    | enqueue | send | succeed | stop | fail => cases hlocal
    | skip | record | finish => exact .inl ⟨q, hq, hs⟩
    | start now hpc =>
      refine .inl ⟨q, ?_, hs⟩
      show q ∈ (readQueue now w.client).queue
      rw [readQueue_queue]
      exact hstays hord q hq hs
    | settle m r rest now c hpc hset =>
      obtain ⟨hfresh, hdrops, hkeeps⟩ := hord
      rw [hpc] at hdrops hkeeps
      have hq' := hstays hfresh q hq hs
      -- Dropping the `clientId` drops the last write only when it is the entry itself.
      have herase : drops m r = true →
          q ∈ (removeEntry m.clientId now w.client).queue ∨ m.serial = l.serial := by
        intro hdrop
        by_cases hc : q.clientId = m.clientId
        · exact .inr ((hdrops hdrop q hq (mem_filter.mp hq').2 hc).symm.trans hs)
        · left
          rw [removeEntry_queue]
          exact mem_erase.mpr ⟨hq', hc⟩
      cases hset with
      | learns v realId hid | removes v hid =>
        rcases herase rfl with h | h
        · exact .inl ⟨q, h, hs⟩
        · obtain ⟨e, he, hes⟩ := hd.settles m v rest hpc
          exact .inr ⟨e, .inl he, hes.trans h⟩
      | fails status message hgives =>
        rcases herase hgives with h | h
        · exact .inl ⟨q, h, hs⟩
        · have := hkeeps hgives
          rw [(isLatest_iff hl).mpr h] at this
          cases this
      | keeps status message hgives =>
        rcases mem_bumpRetries_of_mem m.clientId (m.retries.getD 0 + 1) now w.client hq' with h | h
        · exact .inl ⟨q, h, hs⟩
        · exact .inl ⟨_, h, hs⟩
    | rewrite m realId rest now hpc =>
      refine .inl ⟨{ q with url := substitute m.clientId realId q.url }, ?_, hs⟩
      show _ ∈ (rewriteUrls m.clientId realId now w.client).queue
      rw [rewriteUrls_queue]
      exact mem_map.mpr ⟨q, hstays hord q hq hs, rfl⟩
  rcases hi l hl with h | h | h
  · rcases hqueued h with h | h
    · exact .inl h
    · exact .inr (.inr h)
  · exact .inr (.inl h)
  · exact .inr (.inr h)

/-- Every step that meets the condition keeps the last write somewhere. -/
theorem present_step {cfg : Idempotency.Config} {t : World} {a : Action} (hi : Present w)
    (hd : DrainInv w) (hord : Orderly user w a) (hstep : Step cfg user w a t) : Present t := by
  cases hstep with
  | enqueue m createdAt now => exact present_queueWrite m createdAt now w
  | drain a c hlocal hstep => exact hi.drain hd hord hlocal hstep
  | send m rest hpc => exact hi.mono rfl rfl rfl (fun _ h => h)
  | refresh m rest hpc => exact hi.mono rfl rfl rfl (fun _ h => h)
  | arrive k m current ip now s hk hstep =>
    exact hi.mono rfl rfl rfl
      (fun e he => he.mono (fun j c hc => hstep.request hc) (fun _ h => h))
  | lose k => exact hi.mono rfl rfl rfl (fun _ h => h)
  | receive m rest response offline c hpc hr hstep =>
    obtain ⟨-, -, -, -, hq, -⟩ := pc_of_reply hstep
    exact hi.mono rfl hq rfl (fun _ h => h)
  | fail message offline c hstep =>
    obtain ⟨-, -, -, -, hq, -⟩ := pc_of_reply hstep
    exact hi.mono rfl hq rfl (fun _ h => h)
  | commit i c m hc hp hm =>
    refine hi.mono rfl rfl rfl ?_
    rintro e ⟨j, hj, d, hd', he⟩
    exact ⟨j, mem_append_left _ hj, d, hd', he⟩
  | server a s hmay hstep =>
    exact hi.mono rfl rfl rfl
      (fun e he => he.mono (fun j c hc => hstep.request hc) (fun _ h => h))
  | write m now =>
    intro l hl
    cases hl
    exact .inr (.inl ⟨_, mem_append_right _ (mem_singleton.mpr rfl), rfl, rfl⟩)
  | land d x hd' hnet => exact hi.setDirect hd' rfl (fun _ => rfl) (fun h => .inl h)
  | loseDirect d x hd' => exact hi.setDirect hd' rfl id (fun h => .inl h)
  | succeed d x hd' hland => exact hi.setDirect hd' rfl id (fun _ => .inr (.inl hland))
  | refuse d x hd' => exact hi.setDirect hd' rfl id (fun _ => .inr (.inr (hord x hd')))
  | queueDirect d x now hd' t ht =>
    have hlast : w.isLatest x.entry = true := hord x hd'
    rw [if_pos hlast, ht]
    exact present_queueWrite x.entry.toMutation none now _

/-! ## Whole runs -/

/-- What holds in every state of an orderly run. -/
structure Inv (w : World) : Prop where
  server : ServerInv w.server w.committed
  drain : DrainInv w
  order : Order w
  present : Present w

theorem inv_step {cfg : Idempotency.Config} {t : World} {a : Action} (hi : Inv w)
    (hord : Orderly user w a) (h : step cfg user w a = some t) : Inv t := by
  have hstep := Step.of_step h
  exact ⟨serverInv_step hi.server hord hstep, drainInv_step hi.drain hi.server hstep,
    order_step hi.order hi.server hord hstep, present_step hi.present hi.drain hord hstep⟩

/-- Nothing is written, pending or under way at first. -/
theorem inv_initial (failedSync : List FailedSyncItem) (reconciler : Bool) :
    Inv (initial failedSync reconciler) := by
  have hheld : ∀ e, ¬Held (initial failedSync reconciler) e := by
    rintro e ((he | he) | ⟨marked, he⟩ | ⟨c, hc, -⟩ | ⟨d, hd, -⟩ | he | he)
    · cases he
    · cases he
    · cases he
    · cases hc
    · cases hd
    · cases he
    · cases he
  refine ⟨⟨?_, ?_, ?_⟩, ⟨?_, ?_, ?_⟩, ⟨?_, ?_, ?_, ?_, ?_, ?_⟩, ?_⟩
  · intro slot hslot
    cases hslot
  · intro c hc
    cases hc
  · intro j hj
    cases hj
  · intro n hn
    cases hn
  · intro m hm
    cases hm
  · intro m v rest h
    cases h
  · exact fun e he => absurd he (hheld e)
  · intro l hl
    cases hl
  · exact fun e e' he => absurd he (hheld e)
  · exact fun e e' he => absurd he.held (hheld e)
  · exact fun e q he => absurd he.held (hheld e)
  · intro l e hl
    cases hl
  · intro l hl
    cases hl

/-- The invariant is enough. -/
theorem Inv.lastWriteWins (hi : Inv w) : LastWriteWins w where
  applied hquiet l hl := by
    obtain ⟨e, he, hs⟩ : ∃ e, Done w e ∧ e.serial = l.serial := by
      rcases hi.present l hl with ⟨q, hq, -⟩ | ⟨d, hd, hwait, -⟩ | h
      · rw [hquiet.drained] at hq
        cases hq
      · rw [hquiet.noDirect d hd] at hwait
        cases hwait
      · exact h
    obtain ⟨v, hv, hvs⟩ := (hi.order.applied l e hl he hs).value
    refine ⟨v, hv, hi.order.agree v l ?_ ?_ hvs⟩
    · exact .inr (.inr (.inr (.inr (.inl hv))))
    · exact .inr (.inr (.inr (.inr (.inr hl))))
  replayed i c e response j hc he hp := by
    have hcall := mem_of_getElem? hc
    obtain ⟨d, e', hd, he', hserial, hurl⟩ :=
      (hi.server.calls c hcall e he).1 j (by rw [hp]; rfl)
    have hsame : SameWrite e' e := by
      refine hi.order.agree e' e ?_ ?_ hserial
      · exact .inr (.inr (.inl ⟨d, mem_of_getElem? hd, he'⟩))
      · exact .inr (.inr (.inl ⟨c, hcall, he⟩))
    exact ⟨d, e', hd, he', hsame.2.2.1, hurl, hsame.2.2.2.1⟩

/-- **The last write wins** in an orderly run: whatever the client writes and whatever
the network loses, delays or delivers, a drained queue leaves the last write in the
resource, and no replay gets the response to another request. -/
theorem replay_lastWriteWins (cfg : Idempotency.Config) (user : String)
    (failedSync : List FailedSyncItem) (reconciler : Bool) (as : List Action) (w : World)
    (hrun : Machine.run (step cfg user) (initial failedSync reconciler) as = some w)
    (hord : Machine.Meets (step cfg user) (Orderly user) (initial failedSync reconciler) as) :
    LastWriteWins w :=
  (Machine.inv_run_of_meets (I := Inv) (fun _ _ _ hi hc h => inv_step hi hc h)
    (inv_initial failedSync reconciler) hord hrun).lastWriteWins

/-! ## Two drains -/

/-- The home base of the crew is set. -/
def setHomeBase (location : String) : Mutation :=
  enqueueOfflineMutation
    { method := .put, path := "/crews/c1/home-base",
      body := some (.obj [("location", .str location)]) } ""

/-- Where the crew meets according to a write. -/
def locationOf (e : QueuedMutation) : Option String := e.body.bind (Json.stringField "location")

/-- The answer of the route. -/
def saved : Idempotency.Response := ⟨200, .null⟩

/-- A drain that replays one entry, as request number `i` of the server. -/
def drainOnce (i : ℕ) (now : ℤ) : List Action :=
  [.drain (.start false now), .send, .arrive 0 "10.0.0.1" now, .commit i,
    .server (.json i saved now), .receive false, .drain (.settle now), .drain .finish]

/-- A drain that replays one entry and gets the response from the cache. -/
def drainCached (now : ℤ) : List Action :=
  [.drain (.start false now), .send, .arrive 0 "10.0.0.1" now, .receive false,
    .drain (.settle now), .drain .finish]

/-- The response to the first replay is lost, the second gets it from the cache; a
later write is replayed after the slot has expired. -/
def expiredSlotRun : List Action :=
  [.enqueue (setHomeBase "gate A") none 0, .drain (.start false 1), .send,
    .arrive 0 "10.0.0.1" 1, .commit 0, .server (.json 0 saved 1), .fail "timeout" true] ++
  drainCached 2 ++
  [.server (.sweep 300002), .enqueue (setHomeBase "gate B") none 300003] ++
  drainOnce 2 300004

/-- The promise on a run with a retry and two writes of the same resource. -/
theorem lastWriteWins_expiredSlotRun :
    ∃ w, Machine.run (step Idempotency.defaultConfig "ana") (initial [] false) expiredSlotRun =
        some w ∧ LastWriteWins w := by
  obtain ⟨w, hw⟩ : ∃ w, Machine.run (step Idempotency.defaultConfig "ana") (initial [] false)
      expiredSlotRun = some w := Option.isSome_iff_exists.mp (by decide)
  exact ⟨w, hw, replay_lastWriteWins Idempotency.defaultConfig "ana" [] false expiredSlotRun w hw
    (by decide)⟩

/-- The second write is replayed while the response to the first is cached. -/
def cachedSlotRun : List Action :=
  [.enqueue (setHomeBase "gate A") none 0] ++ drainOnce 0 1 ++
  [.enqueue (setHomeBase "gate B") none 2] ++ drainCached 3

/-- **The last write is not applied**: the queue is drained, and the crew still meets
where the first write said. -/
theorem last_write_not_applied :
    ∃ w ∈ Machine.run (step Idempotency.defaultConfig "ana") (initial [] false) cachedSlotRun,
      ¬LastWriteWins w := by
  have hrun : ∃ w ∈ Machine.run (step Idempotency.defaultConfig "ana") (initial [] false)
      cachedSlotRun, w.client.pc.isIdle = true ∧ w.client.queue = [] ∧ w.directs = [] ∧
        (∃ v ∈ w.value, locationOf v = some "gate A") ∧
          ∃ l ∈ w.latest, locationOf l = some "gate B" := by
    decide
  obtain ⟨w, hw, hpc, hqueue, hdirects, ⟨v, hv, hva⟩, l, hl, hlb⟩ := hrun
  refine ⟨w, hw, fun h => ?_⟩
  have hquiet : Quiescent w :=
    ⟨Pc.isIdle_iff.mp hpc, hqueue, fun d hd => by
      rw [hdirects] at hd
      cases hd⟩
  obtain ⟨v', hv', hsame⟩ := h.applied hquiet l hl
  rw [Option.mem_def.mp hv] at hv'
  cases hv'
  have hbody : locationOf v = locationOf l := by rw [locationOf, locationOf, hsame.2.2.2.1]
  rw [hva, hlb] at hbody
  exact absurd hbody (by decide)

end FestivalPlanner.Replay
