import FestivalPlanner.Sync.Replay

/-!
# The order of the writes

The serials number the writes the client makes.  When one write is under way at a
time, and it is the oldest that is pending, then the resource never goes back to an
older write.

* `Pending`, `Live`, `Done`, `Held` — where a write can be;
* `Order` — the invariant on the serials;
* `Parts`, `Order.moves` — most steps only move writes about;
* `Order.queueWrite`, `Order.send`, `Order.commit` and the others — the steps that make,
  send or execute a write.
-/

namespace FestivalPlanner.Replay

open OfflineQueue List

/-! ## Where a write can be -/

/-- The entry is in the queue or in the drain's hands. -/
def Pending (w : World) (q : QueuedMutation) : Prop :=
  q ∈ w.client.queue ∨ q ∈ w.client.pc.entries

/-- The writes of the requests under way: on the wire, at the server with a handler
that may still execute, or sent directly. -/
def underWay (w : World) : List QueuedMutation :=
  w.wire.map Prod.fst ++
    (w.server.calls.filter (fun c => c.phase.isLive)).filterMap (fun c => c.request.payload) ++
    (w.directs.filter (fun d => d.onNetwork)).map Direct.entry

/-- The drain awaits this entry, or a request with it is under way. -/
def Live (w : World) (e : QueuedMutation) : Prop :=
  (∃ rest, w.client.pc = .inFlight e rest) ∨ e ∈ underWay w

/-- The handler of a replay of this entry wrote the resource. -/
def Committed (w : World) (e : QueuedMutation) : Prop :=
  ∃ j ∈ w.committed, ∃ c, w.server.calls[j]? = some c ∧ c.request.payload = some e

/-- The resource was written with this entry. -/
def Done (w : World) (e : QueuedMutation) : Prop :=
  Committed w e ∨ ∃ d ∈ w.directs, d.landed = true ∧ d.entry = e

/-- The entry occurs anywhere. -/
def Held (w : World) (e : QueuedMutation) : Prop :=
  Pending w e ∨ (∃ marked, (e, marked) ∈ w.wire) ∨
    (∃ c ∈ w.server.calls, c.request.payload = some e) ∨
    (∃ d ∈ w.directs, d.entry = e) ∨ w.value = some e ∨ w.latest = some e

variable {w t : World} {e m : QueuedMutation} {a : OfflineQueue.Action} {s : OfflineQueue.State}
  {cfg : Idempotency.Config}

theorem mem_underWay :
    e ∈ underWay w ↔ (∃ marked, (e, marked) ∈ w.wire) ∨
      (∃ c ∈ w.server.calls, c.phase.isLive = true ∧ c.request.payload = some e) ∨
      ∃ d ∈ w.directs, d.onNetwork = true ∧ d.entry = e := by
  simp only [underWay, mem_append, mem_map, mem_filterMap, mem_filter,
    and_assoc, Prod.exists, or_assoc]
  simp

theorem Live.held (h : Live w e) : Held w e := by
  rcases h with ⟨rest, hpc⟩ | h
  · refine .inl (.inr ?_)
    rw [hpc]
    exact mem_cons_self ..
  · rcases mem_underWay.mp h with h | ⟨c, hc, -, hp⟩ | ⟨d, hd, -, he⟩
    · exact .inr (.inl h)
    · exact .inr (.inr (.inl ⟨c, hc, hp⟩))
    · exact .inr (.inr (.inr (.inl ⟨d, hd, he⟩)))

theorem Done.held (h : Done w e) : Held w e := by
  rcases h with ⟨j, -, c, hc, hp⟩ | ⟨d, hd, -, he⟩
  · exact .inr (.inr (.inl ⟨c, mem_of_getElem? hc, hp⟩))
  · exact .inr (.inr (.inr (.inl ⟨d, hd, he⟩)))

/-- What was written stays written. -/
theorem Committed.mono (hreq : ∀ (j : ℕ) c, w.server.calls[j]? = some c →
      ∃ c', t.server.calls[j]? = some c' ∧ c'.request = c.request)
    (hcom : ∀ j ∈ w.committed, j ∈ t.committed) (h : Committed w e) : Committed t e := by
  obtain ⟨j, hj, c, hc, hp⟩ := h
  obtain ⟨c', hc', hr⟩ := hreq j c hc
  exact ⟨j, hcom j hj, c', hc', hr ▸ hp⟩

/-! ## Where a step takes the drain -/

/-- Where a step without the network takes the drain. -/
theorem pc_of_isLocal {t : OfflineQueue.State} (hlocal : isLocal a = true)
    (hstep : OfflineQueue.Step s a t) :
    t = s ∨ ∀ m rest, s.pc ≠ .inFlight m rest ∧ t.pc ≠ .inFlight m rest ∧
      ∀ r, t.pc ≠ .settling m r rest := by
  cases hstep with
  | enqueue | send | succeed | stop | fail => cases hlocal
  | skip => exact .inl rfl
  | start now hpc | finish hpc =>
    right
    simp [hpc]
  | settle m r rest now t hpc hset =>
    right
    cases hset <;> simp [hpc]
  | record m error rest now hpc =>
    right
    simp [hpc]
  | rewrite m realId rest now hpc =>
    right
    simp [hpc]

variable {r : Reply} {offline : Bool} {c : Idempotency.Call (Option QueuedMutation)} {d : ℕ}
  {x : Direct}

/-- Where a reply takes the drain. -/
theorem pc_of_reply {t : OfflineQueue.State} (hstep : OfflineQueue.Step s (.reply r offline) t) :
    ∃ m rest, s.pc = .inFlight m rest ∧ (t.pc = .idle ∨ t.pc = .settling m r rest) ∧
      t.queue = s.queue ∧ t.nextSerial = s.nextSerial := by
  cases hstep with
  | succeed m rest v offline hpc => exact ⟨m, rest, hpc, .inr rfl, rfl, rfl⟩
  | stop m rest status message hpc => exact ⟨m, rest, hpc, .inl rfl, rfl, rfl⟩
  | fail m rest status message hpc => exact ⟨m, rest, hpc, .inr rfl, rfl, rfl⟩

/-! ## The order of the writes -/

/-- The resource holds this write, and no other write is on its way. -/
structure Applied (w : World) (l : QueuedMutation) : Prop where
  value : ∃ v, w.value = some v ∧ v.serial = l.serial
  live : ∀ e, Live w e → e.serial = l.serial
  pending : ∀ q, Pending w q → q.serial = l.serial

/-- The serials order the writes: one write is under way at a time, it is the oldest
that is pending, and once the last write is executed it stays. -/
structure Order (w : World) : Prop where
  known : ∀ e, Held w e → ∃ l, w.latest = some l ∧ e.serial ≤ l.serial
  bound : ∀ l, w.latest = some l → l.serial < w.client.nextSerial
  agree : ∀ e e', Held w e → Held w e' → e.serial = e'.serial → SameWrite e e'
  alone : ∀ e e', Live w e → Live w e' → e.serial = e'.serial
  oldest : ∀ e q, Live w e → Pending w q → e.serial ≤ q.serial
  applied : ∀ l e, w.latest = some l → Done w e → e.serial = l.serial → Applied w l

theorem Order.lt_nextSerial (hi : Order w) (he : Held w e) : e.serial < w.client.nextSerial := by
  obtain ⟨l, hl, hle⟩ := hi.known e he
  have := hi.bound l hl
  omega

/-- A step that only moves writes about. -/
structure Moves (w t : World) : Prop where
  latest : t.latest = w.latest
  value : t.value = w.value
  nextSerial : t.client.nextSerial = w.client.nextSerial
  held : ∀ e, Held t e → ∃ e', Held w e' ∧ SameWrite e e'
  live : ∀ e, Live t e → Live w e
  pending : ∀ q, Pending t q → ∃ q', Pending w q' ∧ SameWrite q q'
  done : ∀ e, Done t e → Done w e

theorem Order.moves (hi : Order w) (h : Moves w t) : Order t where
  known e he := by
    obtain ⟨e', he', hs⟩ := h.held e he
    obtain ⟨l, hl, hle⟩ := hi.known e' he'
    exact ⟨l, h.latest.trans hl, hs.1 ▸ hle⟩
  bound l hl := by
    rw [h.nextSerial]
    exact hi.bound l (h.latest.symm.trans hl)
  agree e e' he he' heq := by
    obtain ⟨d, hd, hs⟩ := h.held e he
    obtain ⟨d', hd', hs'⟩ := h.held e' he'
    have := hi.agree d d' hd hd' (by rw [← hs.1, ← hs'.1, heq])
    exact (hs.trans this).trans hs'.symm
  alone e e' he he' := hi.alone e e' (h.live e he) (h.live e' he')
  oldest e q he hq := by
    obtain ⟨q', hq', hs⟩ := h.pending q hq
    rw [hs.1]
    exact hi.oldest e q' (h.live e he) hq'
  applied l e hl he heq := by
    have ha := hi.applied l e (h.latest.symm.trans hl) (h.done e he) heq
    refine ⟨h.value ▸ ha.value, fun e he => ha.live e (h.live e he), fun q hq => ?_⟩
    obtain ⟨q', hq', hs⟩ := h.pending q hq
    exact hs.1.trans (ha.pending q' hq')

/-- A new write is the last one, and nothing that was executed is it. -/
theorem Order.newWrite {e₀ : QueuedMutation} (hi : Order w) (hlatest : t.latest = some e₀)
    (hserial : e₀.serial = w.client.nextSerial)
    (hnext : t.client.nextSerial = w.client.nextSerial + 1)
    (hheld : ∀ e, Held t e → e = e₀ ∨ Held w e) (hdone : ∀ e, Done t e → Done w e)
    (halone : ∀ e e', Live t e → Live t e' → e.serial = e'.serial)
    (holdest : ∀ e q, Live t e → Pending t q → e.serial ≤ q.serial) : Order t where
  known e he := by
    refine ⟨e₀, hlatest, ?_⟩
    rcases hheld e he with rfl | he
    · exact le_refl _
    · have := hi.lt_nextSerial he
      omega
  bound l hl := by
    rw [hlatest] at hl
    cases hl
    omega
  agree e e' he he' heq := by
    rcases hheld e he with rfl | he <;> rcases hheld e' he' with rfl | he'
    · exact SameWrite.refl _
    · have := hi.lt_nextSerial he'
      omega
    · have := hi.lt_nextSerial he
      omega
    · exact hi.agree e e' he he' heq
  alone := halone
  oldest := holdest
  applied l e hl he heq := by
    rw [hlatest] at hl
    cases hl
    have := hi.lt_nextSerial (hdone e he).held
    omega

/-- A write that is under way reaches the resource. -/
theorem Order.put (hi : Order w) (hm : Live w m) (hlatest : t.latest = w.latest)
    (hvalue : t.value = some m) (hnext : t.client.nextSerial = w.client.nextSerial)
    (hheld : ∀ e, Held t e → Held w e) (hlive : ∀ e, Live t e → Live w e)
    (hpending : ∀ q, Pending t q → Pending w q) (hdone : ∀ e, Done t e → e = m ∨ Done w e) :
    Order t where
  known e he := by
    rw [hlatest]
    exact hi.known e (hheld e he)
  bound l hl := by
    rw [hnext]
    exact hi.bound l (hlatest ▸ hl)
  agree e e' he he' := hi.agree e e' (hheld e he) (hheld e' he')
  alone e e' he he' := hi.alone e e' (hlive e he) (hlive e' he')
  oldest e q he hq := hi.oldest e q (hlive e he) (hpending q hq)
  applied l e hl he heq := by
    rw [hlatest] at hl
    -- Nothing but the last write reaches the resource once that was executed.
    have hserial : m.serial = l.serial := by
      rcases hdone e he with rfl | he
      · exact heq
      · exact (hi.applied l e hl he heq).live m hm
    refine ⟨⟨m, hvalue, hserial⟩, fun e he => (hi.alone e m (hlive e he) hm).trans hserial, ?_⟩
    intro q hq
    obtain ⟨l', hl', hle⟩ := hi.known q (.inl (hpending q hq))
    rw [hl] at hl'
    cases hl'
    have := hi.oldest m q hm (hpending q hq)
    omega

/-! ## Steps that move writes about -/

/-- The parts of a world hold only what those of another held. -/
structure Parts (w t : World) : Prop where
  latest : t.latest = w.latest
  value : t.value = w.value
  committed : t.committed = w.committed
  nextSerial : t.client.nextSerial = w.client.nextSerial
  queue : ∀ q ∈ t.client.queue, ∃ q' ∈ w.client.queue, SameWrite q q'
  entries : ∀ q ∈ t.client.pc.entries, Pending w q
  inFlight : ∀ m rest, t.client.pc = .inFlight m rest → ∃ rest', w.client.pc = .inFlight m rest'
  wire : ∀ p ∈ t.wire, Live w p.1
  calls : ∀ (j : ℕ) c e, t.server.calls[j]? = some c → c.request.payload = some e →
    (∃ c', w.server.calls[j]? = some c' ∧ c'.request.payload = some e ∧
      (c.phase.isLive = true → c'.phase.isLive = true)) ∨ (j ∉ w.committed ∧ Live w e)
  directs : ∀ d ∈ t.directs, ∃ d' ∈ w.directs, d'.entry = d.entry ∧
    (d.onNetwork = true → d'.onNetwork = true) ∧ (d.landed = true → d'.landed = true)

theorem live_of_mem_wire {marked : Bool} (h : (e, marked) ∈ w.wire) : Live w e :=
  Or.inr (mem_underWay.mpr (.inl ⟨marked, h⟩))

theorem Parts.refl (w : World) : Parts w w where
  latest := rfl
  value := rfl
  committed := rfl
  nextSerial := rfl
  queue q hq := ⟨q, hq, SameWrite.refl q⟩
  entries _ hq := .inr hq
  inFlight _ rest h := ⟨rest, h⟩
  wire _ hp := live_of_mem_wire hp
  calls _ c _ hc he := .inl ⟨c, hc, he, id⟩
  directs d hd := ⟨d, hd, rfl, id, id⟩

theorem Parts.moves (h : Parts w t) : Moves w t := by
  have hpending : ∀ q, Pending t q → ∃ q', Pending w q' ∧ SameWrite q q' := by
    rintro q (hq | hq)
    · obtain ⟨q', hq', hs⟩ := h.queue q hq
      exact ⟨q', .inl hq', hs⟩
    · exact ⟨q, h.entries q hq, SameWrite.refl q⟩
  refine ⟨h.latest, h.value, h.nextSerial, ?_, ?_, hpending, ?_⟩
  · rintro e (he | ⟨marked, he⟩ | ⟨c, hc, he⟩ | ⟨d, hd, he⟩ | he | he)
    · obtain ⟨q, hq, hs⟩ := hpending e he
      exact ⟨q, .inl hq, hs⟩
    · exact ⟨e, (h.wire _ he).held, SameWrite.refl e⟩
    · refine ⟨e, ?_, SameWrite.refl e⟩
      obtain ⟨j, hj⟩ := mem_iff_getElem?.mp hc
      rcases h.calls j c e hj he with ⟨c', hc', he', -⟩ | ⟨-, hlive⟩
      · exact .inr (.inr (.inl ⟨c', mem_of_getElem? hc', he'⟩))
      · exact hlive.held
    · obtain ⟨d', hd', heq, -⟩ := h.directs d hd
      exact ⟨e, .inr (.inr (.inr (.inl ⟨d', hd', heq.trans he⟩))), SameWrite.refl e⟩
    · rw [h.value] at he
      exact ⟨e, .inr (.inr (.inr (.inr (.inl he)))), SameWrite.refl e⟩
    · rw [h.latest] at he
      exact ⟨e, .inr (.inr (.inr (.inr (.inr he)))), SameWrite.refl e⟩
  · rintro e (⟨rest, hpc⟩ | he)
    · exact .inl (h.inFlight e rest hpc)
    · rcases mem_underWay.mp he with ⟨marked, he⟩ | ⟨c, hc, hlive, he⟩ | ⟨d, hd, hnet, he⟩
      · exact h.wire _ he
      · obtain ⟨j, hj⟩ := mem_iff_getElem?.mp hc
        rcases h.calls j c e hj he with ⟨c', hc', he', himp⟩ | ⟨-, hlive⟩
        · exact .inr (mem_underWay.mpr
            (.inr (.inl ⟨c', mem_of_getElem? hc', himp hlive, he'⟩)))
        · exact hlive
      · obtain ⟨d', hd', heq, himp, -⟩ := h.directs d hd
        exact .inr (mem_underWay.mpr (.inr (.inr ⟨d', hd', himp hnet, heq.trans he⟩)))
  · rintro e (⟨j, hj, c, hc, he⟩ | ⟨d, hd, hland, he⟩)
    · rw [h.committed] at hj
      rcases h.calls j c e hc he with ⟨c', hc', he', -⟩ | ⟨hno, -⟩
      · exact .inl ⟨j, hj, c', hc', he'⟩
      · exact absurd hj hno
    · obtain ⟨d', hd', heq, -, himp⟩ := h.directs d hd
      exact .inr ⟨d', hd', himp hland, heq.trans he⟩

/-- A step of the drain without the network queues nothing new. -/
theorem queue_of_isLocal {t : OfflineQueue.State} (hlocal : isLocal a = true)
    (hstep : OfflineQueue.Step s a t) :
    t.nextSerial = s.nextSerial ∧ (∀ q ∈ t.queue, ∃ q' ∈ s.queue, SameWrite q q') ∧
      ∀ q ∈ t.pc.entries, q ∈ s.queue ∨ q ∈ s.pc.entries := by
  have hfilter : ∀ {now : ℤ} {q : QueuedMutation}, q ∈ s.queue.filter (isFresh now) →
      ∃ q' ∈ s.queue, SameWrite q q' :=
    fun hq => ⟨_, (mem_filter.mp hq).1, SameWrite.refl _⟩
  cases hstep with
  | enqueue | send | succeed | stop | fail => cases hlocal
  | skip => exact ⟨rfl, fun q hq => ⟨q, hq, SameWrite.refl q⟩, fun q hq => .inr hq⟩
  | start now hpc =>
    refine ⟨readQueue_nextSerial now s, fun q hq => ?_, fun q hq => .inl ?_⟩
    · exact hfilter ((readQueue_queue now s) ▸ hq)
    · have hq := mem_sortQueue.mp hq
      rw [readQueue_queue] at hq
      exact (mem_filter.mp hq).1
  | settle m r rest now t hpc hset =>
    have hrest : ∀ q ∈ rest, q ∈ s.pc.entries := fun q hq => by
      rw [hpc]
      exact mem_cons_of_mem _ hq
    have hall : ∀ q ∈ m :: rest, q ∈ s.pc.entries := fun q hq => by
      rw [hpc]
      exact hq
    have herase : ∀ q ∈ (removeEntry m.clientId now s).queue, ∃ q' ∈ s.queue, SameWrite q q' := by
      intro q hq
      rw [removeEntry_queue] at hq
      exact hfilter (Keyed.mem_erase.mp hq).1
    have hnext := removeEntry_nextSerial m.clientId now s
    cases hset with
    | learns v realId hid => exact ⟨hnext, herase, fun q hq => .inr (hall q hq)⟩
    | removes v hid => exact ⟨hnext, herase, fun q hq => .inr (hrest q hq)⟩
    | fails status message h => exact ⟨hnext, herase, fun q hq => .inr (hall q hq)⟩
    | keeps status message h =>
      refine ⟨bumpRetries_nextSerial _ _ now s, fun q hq => ?_, fun q hq => .inr (hrest q hq)⟩
      have hq : q ∈ (bumpRetries m.clientId (m.retries.getD 0 + 1) now s).queue := hq
      rw [bumpRetries_queue] at hq
      rcases Keyed.mem_of_mem_modify hq with hq | ⟨q₀, hq₀, -, rfl⟩
      · exact hfilter hq
      · exact ⟨q₀, (mem_filter.mp hq₀).1, (SameWrite.refl q₀).retries _⟩
  | record m error rest now hpc =>
    refine ⟨rfl, fun q hq => ⟨q, hq, SameWrite.refl q⟩, fun q hq => .inr ?_⟩
    rw [hpc]
    exact mem_cons_of_mem _ hq
  | rewrite m realId rest now hpc =>
    refine ⟨rewriteUrls_nextSerial _ _ now s, fun q hq => ?_, fun q hq => .inr ?_⟩
    · have hq : q ∈ (rewriteUrls m.clientId realId now s).queue := hq
      rw [rewriteUrls_queue] at hq
      obtain ⟨q₀, hq₀, rfl⟩ := mem_map.mp hq
      exact ⟨q₀, (mem_filter.mp hq₀).1, (SameWrite.refl q₀).url _⟩
    · rw [hpc]
      exact mem_cons_of_mem _ hq
  | finish hpc => exact ⟨rfl, fun q hq => ⟨q, hq, SameWrite.refl q⟩, fun q hq => by cases hq⟩

/-- A step of the server only adds the request that arrives. -/
theorem calls_of_step {s t : Idempotency.State (Option QueuedMutation)}
    {a : Idempotency.Action (Option QueuedMutation)} (hstep : Idempotency.Step cfg s a t) {j : ℕ}
    (hc : t.calls[j]? = some c) :
    (∃ c', s.calls[j]? = some c' ∧ c'.request.payload = c.request.payload ∧
      (c.phase.isLive = true → c'.phase.isLive = true)) ∨
      j = s.calls.length ∧ ∃ now, a = .arrive c.request now := by
  cases hstep.callStep hc with
  | same h => exact .inl ⟨c, h, rfl, id⟩
  | moved h hlive hphase => exact .inl ⟨_, h, rfl, fun _ => hlive⟩
  | answered ha hd h hlive hj => exact .inl ⟨_, h, rfl, fun _ => hlive⟩
  | @starts r now ha hj => exact .inr ⟨hj, now, ha⟩
  | @joins r now key slot ha hj hk hslot => exact .inr ⟨hj, now, ha⟩

/-- Changing the outcome of a direct write. -/
theorem Parts.setDirect (y : Direct) (hd : w.directs[d]? = some x) (hentry : x.entry = y.entry)
    (hnet : y.onNetwork = true → x.onNetwork = true) (hland : y.landed = true → x.landed = true) :
    Parts w { w with directs := w.directs.set d y } :=
  { Parts.refl w with
    directs := fun z hz => by
      rcases mem_or_eq_of_mem_set hz with hz | rfl
      · exact ⟨z, hz, rfl, id, id⟩
      · exact ⟨x, mem_of_getElem? hd, hentry, hnet, hland⟩ }

/-- A local step of the drain. -/
theorem Parts.drain {c : OfflineQueue.State} (hlocal : isLocal a = true)
    (hstep : OfflineQueue.Step w.client a c) : Parts w { w with client := c } := by
  obtain ⟨hn, hq, he⟩ := queue_of_isLocal hlocal hstep
  refine { Parts.refl w with
    nextSerial := hn, queue := hq, entries := he, inFlight := fun m rest h => ?_ }
  rcases pc_of_isLocal hlocal hstep with rfl | hpc
  · exact ⟨rest, h⟩
  · exact absurd h (hpc m rest).2.1

/-- The drain gets a reply. -/
theorem Parts.reply {c : OfflineQueue.State}
    (hstep : OfflineQueue.Step w.client (.reply r offline) c) :
    Parts w { w with client := c, wire := forget w.wire, awaited := none } := by
  obtain ⟨m, rest, hpc, hto, hq, hn⟩ := pc_of_reply hstep
  refine { Parts.refl w with
    nextSerial := hn
    queue := fun q h => ⟨q, hq ▸ h, SameWrite.refl q⟩
    entries := fun q h => .inr ?_
    inFlight := fun m' rest' h => ?_
    wire := fun p hp => ?_ }
  · rw [hpc]
    rcases hto with hto | hto
    · rw [show c.pc.entries = [] by rw [hto]; rfl] at h
      cases h
    · rwa [show c.pc.entries = m :: rest by rw [hto]; rfl] at h
  · rcases hto with hto | hto <;> rw [show c.pc = _ from hto] at h <;> cases h
  · obtain ⟨-, marked, hm⟩ := mem_forget.mp hp
    exact live_of_mem_wire hm

/-- A replay reaches the server: its request was on the wire. -/
theorem Parts.arrive {k : ℕ} {current : Bool} {user ip : String} {now : ℤ} {awaited : Option ℕ}
    {s : Idempotency.State (Option QueuedMutation)}
    (hknown : ∀ j ∈ w.committed, ∃ c, w.server.calls[j]? = some c)
    (hk : w.wire[k]? = some (m, current))
    (hstep : Idempotency.Step cfg w.server (.arrive (replayRequest user ip m) now) s) :
    Parts w { w with server := s, wire := w.wire.eraseIdx k, awaited := awaited } := by
  refine { Parts.refl w with
    wire := fun p hp => live_of_mem_wire (mem_of_mem_eraseIdx hp)
    calls := fun j c e hc he => ?_ }
  rcases calls_of_step hstep hc with ⟨c', hc', hp, hlive⟩ | ⟨rfl, now', ha⟩
  · exact .inl ⟨c', hc', hp.trans he, hlive⟩
  · injection ha with hr
    rw [← hr] at he
    cases he
    refine .inr ⟨fun hj => ?_, live_of_mem_wire (mem_of_getElem? hk)⟩
    obtain ⟨c', hc'⟩ := hknown _ hj
    simp at hc'

/-- The other steps of the server bring no replay. -/
theorem Parts.server {a : Idempotency.Action (Option QueuedMutation)}
    {s : Idempotency.State (Option QueuedMutation)} (hmay : serverMay w a = true)
    (hstep : Idempotency.Step cfg w.server a s) : Parts w { w with server := s } := by
  refine { Parts.refl w with calls := fun j c e hc he => .inl ?_ }
  rcases calls_of_step hstep hc with ⟨c', hc', hp, hlive⟩ | ⟨rfl, now', rfl⟩
  · exact ⟨c', hc', hp.trans he, hlive⟩
  · simp [serverMay, he] at hmay

/-! ## Steps that write -/

/-- The drain sends the oldest write that is pending, and only requests of that write
are under way. -/
def SendsInOrder (w : World) : Pc → Prop
  | .looping (m :: rest) =>
      (∀ e ∈ underWay w, e.serial = m.serial) ∧ ∀ q ∈ w.client.queue ++ rest, m.serial ≤ q.serial
  | _ => True

instance SendsInOrder.decidable (w : World) : ∀ pc, Decidable (SendsInOrder w pc) := fun pc => by
  unfold SendsInOrder
  split <;> infer_instance

/-- `enqueueMutation` accepts a write that is newer than all others. -/
theorem Order.queueWrite (hi : Order w) (m : Mutation) (createdAt : Option ℤ) (now : ℤ) :
    Order (queueWrite m createdAt now w) := by
  set t := Replay.queueWrite m createdAt now w with ht
  set e₀ := newEntry m createdAt now w.client with he₀
  have hpc : t.client.pc = w.client.pc := enqueueMutation_pc now w.client m createdAt
  have hpending : ∀ q, Pending t q → q = e₀ ∨ Pending w q := by
    rintro q (hq | hq)
    · rw [show t.client.queue = _ from enqueueMutation_queue m createdAt now w.client] at hq
      rcases Keyed.mem_or_eq_of_mem_upsert hq with rfl | hq
      · exact .inl rfl
      · exact .inr (.inl (mem_filter.mp hq).1)
    · rw [hpc] at hq
      exact .inr (.inr hq)
  have hlive : ∀ e, Live t e → Live w e := by
    rintro e (⟨rest, h⟩ | h)
    · exact .inl ⟨rest, hpc ▸ h⟩
    · exact .inr h
  refine hi.newWrite (t := t) rfl rfl
    (enqueueMutation_nextSerial m createdAt now w.client) ?_ (fun e he => he)
    (fun e e' he he' => hi.alone e e' (hlive e he) (hlive e' he')) ?_
  · rintro e (he | he | he | he | he | he)
    · exact (hpending e he).imp id Or.inl
    · exact .inr (.inr (.inl he))
    · exact .inr (.inr (.inr (.inl he)))
    · exact .inr (.inr (.inr (.inr (.inl he))))
    · exact .inr (.inr (.inr (.inr (.inr (.inl he)))))
    · cases he
      exact .inl rfl
  · intro e q he hq
    rcases hpending q hq with rfl | hq
    · exact (hi.lt_nextSerial (hlive e he).held).le
    · exact hi.oldest e q (hlive e he) hq

/-- A direct write that is made with nothing else pending or under way. -/
theorem Order.writeDirect (hi : Order w) (m : Mutation) (now : ℤ)
    (hpc : w.client.pc.isIdle = true) (hqueue : w.client.queue = []) (hquiet : underWay w = []) :
    Order (writeDirect m now w) := by
  set t := Replay.writeDirect m now w with ht
  set e₀ := newEntry m none now w.client with he₀
  have hidle : w.client.pc = .idle := Pc.isIdle_iff.mp hpc
  have hdirects : ∀ d ∈ t.directs, d ∈ w.directs ∨ d = ⟨e₀, true, false, true⟩ :=
    fun d hd => (mem_append.mp hd).imp id mem_singleton.mp
  have hlive : ∀ e, Live t e → e = e₀ := by
    rintro e (⟨rest, h⟩ | h)
    · rw [show t.client.pc = .idle from hidle] at h
      cases h
    · have hno : ∀ e, e ∉ underWay w := by simp [hquiet]
      rcases mem_underWay.mp h with h | h | ⟨d, hd, hnet, he⟩
      · exact (hno e (mem_underWay.mpr (.inl h))).elim
      · exact (hno e (mem_underWay.mpr (.inr (.inl h)))).elim
      · rcases hdirects d hd with hd | rfl
        · exact (hno e (mem_underWay.mpr (.inr (.inr ⟨d, hd, hnet, he⟩)))).elim
        · exact he.symm
  refine hi.newWrite (t := t) rfl rfl rfl ?_ ?_ ?_ ?_
  · rintro e (he | he | he | ⟨d, hd, he⟩ | he | he)
    · exact .inr (.inl he)
    · exact .inr (.inr (.inl he))
    · exact .inr (.inr (.inr (.inl he)))
    · rcases hdirects d hd with hd | rfl
      · exact .inr (.inr (.inr (.inr (.inl ⟨d, hd, he⟩))))
      · exact .inl he.symm
    · exact .inr (.inr (.inr (.inr (.inr (.inl he)))))
    · cases he
      exact .inl rfl
  · rintro e (he | ⟨d, hd, hland, he⟩)
    · exact .inl he
    · rcases hdirects d hd with hd | rfl
      · exact .inr ⟨d, hd, hland, he⟩
      · cases hland
  · intro e e' he he'
    rw [hlive e he, hlive e' he']
  · rintro e q - (hq | hq)
    · rw [show t.client.queue = [] from hqueue] at hq
      cases hq
    · rw [show t.client.pc = .idle from hidle] at hq
      cases hq

/-- The drain sends an entry that nothing else pending precedes. -/
theorem Order.send {rest : List QueuedMutation} (hi : Order w)
    (hpc : w.client.pc = .looping (m :: rest)) (hord : SendsInOrder w w.client.pc) :
    Order { w with
      client := { w.client.note (.sent m) with pc := .inFlight m rest }
      wire := w.wire ++ [(m, true)]
      awaited := none } := by
  set t : World := { w with
    client := { w.client.note (.sent m) with pc := .inFlight m rest }
    wire := w.wire ++ [(m, true)]
    awaited := none } with ht
  rw [hpc] at hord
  obtain ⟨honly, hfirst⟩ := hord
  have hm : Pending w m := .inr (by rw [hpc]; exact mem_cons_self ..)
  have hpending : ∀ q, Pending t q ↔ Pending w q := by
    intro q
    rw [Pending, Pending, hpc]
    rfl
  have hlive : ∀ e, Live t e → e.serial = m.serial := by
    rintro e (⟨rest', h⟩ | h)
    · cases h
      rfl
    · rcases mem_underWay.mp h with ⟨marked, h⟩ | h | h
      · rcases mem_append.mp h with h | h
        · exact honly e (mem_underWay.mpr (.inl ⟨marked, h⟩))
        · cases mem_singleton.mp h
          rfl
      · exact honly e (mem_underWay.mpr (.inr (.inl h)))
      · exact honly e (mem_underWay.mpr (.inr (.inr h)))
  have hheld : ∀ e, Held t e → Held w e := by
    rintro e (he | ⟨marked, he⟩ | he)
    · exact .inl ((hpending e).mp he)
    · rcases mem_append.mp he with he | he
      · exact .inr (.inl ⟨marked, he⟩)
      · cases mem_singleton.mp he
        exact .inl hm
    · exact .inr (.inr he)
  refine ⟨fun e he => hi.known e (hheld e he), hi.bound,
    fun e e' he he' => hi.agree e e' (hheld e he) (hheld e' he'),
    fun e e' he he' => (hlive e he).trans (hlive e' he').symm, fun e q he hq => ?_,
    fun l e hl he heq => ?_⟩
  · rw [hlive e he]
    rcases hq with hq | hq
    · exact hfirst q (mem_append_left _ hq)
    · rcases mem_cons.mp hq with rfl | hq
      · exact le_refl _
      · exact hfirst q (mem_append_right _ hq)
  · have ha := hi.applied l e hl he heq
    exact ⟨ha.value, fun e he => (hlive e he).trans (ha.pending m hm),
      fun q hq => ha.pending q ((hpending q).mp hq)⟩

/-- The handler of a replay writes the resource. -/
theorem Order.commit {i : ℕ} (hi : Order w) (hc : w.server.calls[i]? = some c)
    (hlive : c.phase.isLive = true) (hm : c.request.payload = some m) :
    Order { w with value := some m, committed := w.committed ++ [i] } := by
  have hmlive : Live w m :=
    Or.inr (mem_underWay.mpr (.inr (.inl ⟨c, mem_of_getElem? hc, hlive, hm⟩)))
  refine hi.put hmlive rfl rfl rfl ?_ (fun e he => he) (fun q hq => hq) ?_
  · rintro e (he | he | he | he | he | he)
    · exact .inl he
    · exact .inr (.inl he)
    · exact .inr (.inr (.inl he))
    · exact .inr (.inr (.inr (.inl he)))
    · cases he
      exact hmlive.held
    · exact .inr (.inr (.inr (.inr (.inr he))))
  · rintro e (⟨j, hj, d, hd, he⟩ | he)
    · rcases mem_append.mp hj with hj | hj
      · exact .inr (.inl ⟨j, hj, d, hd, he⟩)
      · rw [mem_singleton.mp hj, hc] at hd
        cases hd
        rw [hm] at he
        cases he
        exact .inl rfl
    · exact .inr (.inr he)

/-- A direct write is executed. -/
theorem Order.land (hi : Order w) (hd : w.directs[d]? = some x) (hnet : x.onNetwork = true) :
    Order { w with
      directs := w.directs.set d { x with onNetwork := false, landed := true }
      value := some x.entry } := by
  have hx : x ∈ w.directs := mem_of_getElem? hd
  have hmlive : Live w x.entry := .inr (mem_underWay.mpr (.inr (.inr ⟨x, hx, hnet, rfl⟩)))
  refine hi.put hmlive rfl rfl rfl ?_ ?_ (fun q hq => hq) ?_
  · rintro e (he | he | he | ⟨z, hz, he⟩ | he | he)
    · exact .inl he
    · exact .inr (.inl he)
    · exact .inr (.inr (.inl he))
    · rcases mem_or_eq_of_mem_set hz with hz | rfl
      · exact .inr (.inr (.inr (.inl ⟨z, hz, he⟩)))
      · exact .inr (.inr (.inr (.inl ⟨x, hx, he⟩)))
    · cases he
      exact hmlive.held
    · exact .inr (.inr (.inr (.inr (.inr he))))
  · rintro e (he | he)
    · exact .inl he
    · refine .inr (mem_underWay.mpr ?_)
      rcases mem_underWay.mp he with he | he | ⟨z, hz, hznet, he⟩
      · exact .inl he
      · exact .inr (.inl he)
      · rcases mem_or_eq_of_mem_set hz with hz | rfl
        · exact .inr (.inr ⟨z, hz, hznet, he⟩)
        · cases hznet
  · rintro e (he | ⟨z, hz, hland, he⟩)
    · exact .inr (.inl he)
    · rcases mem_or_eq_of_mem_set hz with hz | rfl
      · exact .inr (.inr ⟨z, hz, hland, he⟩)
      · exact .inl he.symm

end FestivalPlanner.Replay
