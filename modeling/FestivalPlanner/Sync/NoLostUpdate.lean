import FestivalPlanner.Sync.OfflineQueue

/-!
# No update of the offline queue is lost

What the module comment of `offlineQueue.ts` promises: every accepted mutation is
delivered, still queued, superseded by a later mutation of the same resource, or
surfaced as failed.

The promise is not kept in general.  A drain iterates a snapshot and every
completion removes by `clientId`, so a mutation coalesced onto the `clientId`
while the older one is in flight is removed with it (`newer_mutation_lost`).

* `NoLostUpdate` — the promise;
* `KeepsNewer` — the condition on a step: what it removes or reports by
  `clientId` is not a newer mutation than the one it replayed;
* `Inv`, `inv_step` — the invariant that carries it and the step lemma;
* `drainQueue_noLostUpdate` — under that condition the promise is kept, for every
  stored queue and every interleaving of `enqueueMutation` with a drain.
-/

namespace FestivalPlanner.OfflineQueue

open Js List Keyed

/-! ## The promise -/

/-- The same accepted mutation: rewriting the url and counting retries do not make
it another one. -/
def SameWrite (q e : QueuedMutation) : Prop :=
  q.serial = e.serial ∧ q.clientId = e.clientId ∧ q.method = e.method ∧ q.body = e.body ∧
    q.createdAt = e.createdAt

/-- The failed item shows this mutation. -/
def Records (f : FailedSyncItem) (e : QueuedMutation) : Prop :=
  f.clientId = e.clientId ∧ f.method = e.method.name ∧ f.body = e.body

/-- A later mutation of the same `clientId` was accepted. -/
def Superseded (s : State) (e : QueuedMutation) : Prop :=
  ∃ e' ∈ s.accepted, e'.clientId = e.clientId ∧ e.serial < e'.serial

/-- The mutation reached the server with its own body. -/
@[grind =] def Delivered (s : State) (e : QueuedMutation) : Prop := ∃ d ∈ s.delivered, SameWrite d e

/-- The mutation is still queued, or the user can see that it failed. -/
def Kept (s : State) (e : QueuedMutation) : Prop :=
  (∃ q ∈ s.queue, SameWrite q e) ∨ ∃ f ∈ s.failedSync, Records f e

/-- Every accepted mutation is superseded, delivered, queued or shown as failed. -/
def NoLostUpdate (s : State) : Prop :=
  ∀ e ∈ s.accepted, Superseded s e ∨ Delivered s e ∨ Kept s e

/-- Does settling this reply drop the entry from the queue? -/
def drops (m : QueuedMutation) : Reply → Bool
  | .ok _ => true
  | .error status _ => givesUp m status

/-- When the drain drops the `clientId` of the entry it replayed, the queue holds no
other fresh mutation of that `clientId`. -/
def DropsNoOther (s : State) (now : ℤ) : Pc → Prop
  | .settling m r _ =>
      drops m r = true → ∀ q ∈ s.queue, isFresh now q = true → q.clientId = m.clientId →
        q.serial = m.serial
  | _ => True

/-- When the drain records an entry as failed, a newer mutation of the `clientId` is
still queued. -/
def ReportsNoOther (s : State) : Pc → Prop
  | .recording m _ _ =>
      (∃ e ∈ s.accepted, e.clientId = m.clientId ∧ m.serial < e.serial) →
        ∃ q ∈ s.queue, q.clientId = m.clientId
  | _ => True

/-- The condition on a step: what the drain drops or reports by `clientId` is not the
only trace of a newer mutation. -/
def KeepsNewer (s : State) : Action → Prop
  | .settle now => DropsNoOther s now s.pc
  | .record _ => ReportsNoOther s s.pc
  | _ => True

instance DropsNoOther.decidable (s : State) (now : ℤ) : ∀ pc, Decidable (DropsNoOther s now pc) := fun pc => by
  unfold DropsNoOther
  split <;> infer_instance

instance ReportsNoOther.decidable (s : State) : ∀ pc, Decidable (ReportsNoOther s pc) := fun pc => by
  unfold ReportsNoOther
  split <;> infer_instance

instance KeepsNewer.decidable (s : State) : ∀ a, Decidable (KeepsNewer s a) := fun a => by
  unfold KeepsNewer
  split <;> infer_instance

/-! ## The same write -/

theorem SameWrite.refl (e : QueuedMutation) : SameWrite e e := ⟨rfl, rfl, rfl, rfl, rfl⟩

variable {q e m : QueuedMutation} {now : ℤ} {s t : State} {rest : List QueuedMutation}

theorem SameWrite.symm (h : SameWrite q e) : SameWrite e q :=
  ⟨h.1.symm, h.2.1.symm, h.2.2.1.symm, h.2.2.2.1.symm, h.2.2.2.2.symm⟩

theorem SameWrite.trans {d : QueuedMutation} (h : SameWrite q d) (h' : SameWrite d e) :
    SameWrite q e :=
  ⟨h.1.trans h'.1, h.2.1.trans h'.2.1, h.2.2.1.trans h'.2.2.1,
    h.2.2.2.1.trans h'.2.2.2.1, h.2.2.2.2.trans h'.2.2.2.2⟩

theorem SameWrite.retries (h : SameWrite q e) (n : ℕ) :
    SameWrite { q with retries := some n } e := h

theorem SameWrite.url (h : SameWrite q e) (u : String) :
    SameWrite { q with url := u } e := h

theorem records_failedItem (h : SameWrite m e) (error : String) (now : ℤ) :
    Records (failedItem m error now) e :=
  ⟨h.2.1, by simp [failedItem, h.2.2.1], h.2.2.2.1⟩

/-! ## Recording failures keeps the failures shown -/

/-- Recording `m` keeps `e` shown as failed, provided an item of the same
`clientId` is only replaced by one that shows `e` too. -/
theorem records_putLast {l : List FailedSyncItem} {error : String}
    (hm : m.clientId = e.clientId → SameWrite m e)
    (h : (∃ f ∈ l, Records f e) ∨ m.clientId = e.clientId) :
    ∃ f ∈ putLast failedKey (failedItem m error now) l, Records f e := by
  by_cases hc : m.clientId = e.clientId
  · exact ⟨failedItem m error now, mem_putLast.mpr (.inl rfl),
      records_failedItem (hm hc) error now⟩
  · obtain ⟨f, hf, hr⟩ := h.resolve_right hc
    refine ⟨f, mem_putLast.mpr (.inr ⟨hf, ?_⟩), hr⟩
    exact fun hk => hc (hk.symm.trans hr.1)

/-- The same for the loop of `readQueue` over the stale entries. -/
theorem records_foldl_putLast {stale : List QueuedMutation} {l : List FailedSyncItem}
    (hstale : ∀ m ∈ stale, m.clientId = e.clientId → SameWrite m e)
    (h : (∃ f ∈ l, Records f e) ∨ ∃ m ∈ stale, SameWrite m e) :
    ∃ f ∈ stale.foldl
      (fun l m => putLast failedKey (failedItem m expiredError now) l) l, Records f e := by
  induction stale generalizing l with
  | nil => simpa using h
  | cons m stale ih =>
    rw [foldl_cons]
    refine ih (fun m' hm' => hstale m' (mem_cons_of_mem _ hm')) ?_
    by_cases hc : m.clientId = e.clientId
    · exact .inl (records_putLast (hstale m (mem_cons_self ..)) (.inr hc))
    · rcases h with h | ⟨m', hm', hw⟩
      · exact .inl (records_putLast (hstale m (mem_cons_self ..)) (.inl h))
      · rcases mem_cons.mp hm' with rfl | hm'
        · exact absurd hw.2.1 hc
        · exact .inr ⟨m', hm', hw⟩

/-- Pruning the stale entries keeps a mutation that is the only one of its
`clientId` in the queue. -/
theorem Kept.readQueue (honly : ∀ q ∈ s.queue, q.clientId = e.clientId → SameWrite q e)
    (h : Kept s e) : Kept (readQueue now s) e := by
  have hstale : ∀ m ∈ s.queue.filter (fun m => !isFresh now m),
      m.clientId = e.clientId → SameWrite m e :=
    fun m hm => honly m (mem_filter.mp hm).1
  rcases h with ⟨q, hq, hw⟩ | hf
  · by_cases hfresh : isFresh now q = true
    · exact .inl ⟨q, by simp [hq, hfresh], hw⟩
    · refine .inr ?_
      rw [readQueue_failedSync]
      exact records_foldl_putLast hstale (.inr ⟨q, by simp [hq, hfresh], hw⟩)
  · refine .inr ?_
    rw [readQueue_failedSync]
    exact records_foldl_putLast hstale (.inl hf)

/-! ## The invariant -/

/-- The mutation is removed from the queue and about to be recorded as failed. -/
def BeingRecorded (pc : Pc) (e : QueuedMutation) : Prop :=
  ∃ m error rest, pc = .recording m error rest ∧ SameWrite m e

/-- What holds in every state of a run that keeps the newer mutations. -/
structure Inv (s : State) : Prop where
  /-- One entry a `clientId`. -/
  unique : UniqueKeys clientKey s.queue
  /-- The queue holds accepted mutations only. -/
  live : ∀ q ∈ s.queue, ∃ e ∈ s.accepted, SameWrite q e
  /-- The queue holds the newest mutation of each `clientId` it holds. -/
  newest : ∀ q ∈ s.queue, ∀ e ∈ s.accepted, e.clientId = q.clientId → e.serial ≤ q.serial
  /-- So do the snapshot and the entry in flight. -/
  inPass : ∀ m ∈ s.pc.entries, ∃ e ∈ s.accepted, SameWrite m e
  /-- Serials are used once. -/
  fresh : ∀ e ∈ s.accepted, e.serial < s.nextSerial
  distinct : ∀ e ∈ s.accepted, ∀ e' ∈ s.accepted, e.serial = e'.serial → e = e'
  /-- A successful reply is a delivery. -/
  replied : ∀ m v rest, s.pc = .settling m (.ok v) rest → m ∈ s.delivered
  /-- Nothing is lost, the entry about to be recorded included. -/
  accounted : ∀ e ∈ s.accepted, Superseded s e ∨ Delivered s e ∨ Kept s e ∨ BeingRecorded s.pc e

/-- A queued entry of the `clientId` of a mutation that is not superseded is that
mutation. -/
theorem Inv.sameWrite_of_mem_queue (hi : Inv s) (he : e ∈ s.accepted) (hs : ¬Superseded s e)
    (hq : q ∈ s.queue) (hc : q.clientId = e.clientId) : SameWrite q e := by
  obtain ⟨e', he', hw⟩ := hi.live q hq
  have hle : e.serial ≤ q.serial := hi.newest q hq e he hc.symm
  have hge : e'.serial ≤ e.serial := by
    by_contra hlt
    exact hs ⟨e', he', hw.2.1.symm.trans hc, by omega⟩
  have : e' = e := hi.distinct e' he' e he (by have := hw.1; omega)
  exact this ▸ hw

/-- Pruning the stale entries loses no mutation that is not superseded. -/
theorem Inv.kept_readQueue (hi : Inv s) (he : e ∈ s.accepted) (hs : ¬Superseded s e) (now : ℤ)
    (h : Kept s e) : Kept (readQueue now s) e :=
  h.readQueue fun _ hq hc => hi.sameWrite_of_mem_queue he hs hq hc

/-- The steps that accept nothing keep the invariant when the queue and the drain
only hold mutations that the queue or the drain held, and nothing gets lost. -/
theorem Inv.frame (hi : Inv s) (hacc : t.accepted = s.accepted)
    (hnext : t.nextSerial = s.nextSerial) (hdel : ∀ d ∈ s.delivered, d ∈ t.delivered)
    (hunique : UniqueKeys clientKey t.queue)
    (hqueue : ∀ q ∈ t.queue, ∃ q₀ ∈ s.queue, SameWrite q q₀)
    (hpass : ∀ m ∈ t.pc.entries, m ∈ s.pc.entries ∨ m ∈ s.queue)
    (hreplied : ∀ m v rest, t.pc = .settling m (.ok v) rest → m ∈ t.delivered)
    (hkept : ∀ e ∈ s.accepted, ¬Superseded s e → Kept s e ∨ BeingRecorded s.pc e →
      Delivered t e ∨ Kept t e ∨ BeingRecorded t.pc e) : Inv t where
  unique := hunique
  live q hq := by
    obtain ⟨q₀, hq₀, hw⟩ := hqueue q hq
    obtain ⟨e, he, hw'⟩ := hi.live q₀ hq₀
    exact ⟨e, hacc ▸ he, hw.trans hw'⟩
  newest q hq e he hc := by
    obtain ⟨q₀, hq₀, hw⟩ := hqueue q hq
    rw [hw.1]
    exact hi.newest q₀ hq₀ e (hacc ▸ he) (hc.trans hw.2.1)
  inPass m hm := by
    rw [hacc]
    exact (hpass m hm).elim (hi.inPass m) (hi.live m)
  fresh e he := hnext ▸ hi.fresh e (hacc ▸ he)
  distinct e he e' he' h := hi.distinct e (hacc ▸ he) e' (hacc ▸ he') h
  replied := hreplied
  accounted e he := by
    rw [hacc] at he
    by_cases hs : Superseded s e
    · exact .inl (by rw [Superseded, hacc]; exact hs)
    · refine .inr ?_
      rcases (hi.accounted e he).resolve_left hs with ⟨d, hd, hw⟩ | h | h
      · exact .inl ⟨d, hdel d hd, hw⟩
      · exact hkept e he hs (.inl h)
      · exact hkept e he hs (.inr h)

/-! ## The steps -/

theorem inv_enqueue (hi : Inv s) (m : Mutation) (createdAt : Option ℤ) (now : ℤ) :
    Inv (enqueueMutation m createdAt now s) := by
  set e₀ := newEntry m createdAt now s with he₀
  have hserial : e₀.serial = s.nextSerial := rfl
  have hacc := enqueueMutation_accepted m createdAt now s
  have hmem : ∀ {e}, e ∈ (enqueueMutation m createdAt now s).accepted ↔
      e ∈ s.accepted ∨ e = e₀ := by simp [hacc, he₀]
  have hfresh := hi.unique.filter (isFresh now)
  have hqueue : ∀ {q}, q ∈ (enqueueMutation m createdAt now s).queue ↔
      q = e₀ ∨ (q ∈ s.queue ∧ isFresh now q = true) ∧ q.clientId ≠ e₀.clientId := by
    intro q
    rw [enqueueMutation_queue, hfresh.mem_upsert_iff, mem_filter]
  have hnew : ∀ e ∈ s.accepted, e.serial < e₀.serial := fun e he => hserial ▸ hi.fresh e he
  refine ⟨?_, ?_, ?_, ?_, ?_, ?_, ?_, ?_⟩
  · rw [enqueueMutation_queue]
    exact hfresh.upsert _
  · intro q hq
    rcases hqueue.mp hq with rfl | ⟨⟨hq, -⟩, -⟩
    · exact ⟨e₀, hmem.mpr (.inr rfl), SameWrite.refl _⟩
    · obtain ⟨e, he, hw⟩ := hi.live q hq
      exact ⟨e, hmem.mpr (.inl he), hw⟩
  · intro q hq e he hc
    rcases hqueue.mp hq with rfl | ⟨⟨hq, -⟩, hne⟩
    · rcases hmem.mp he with he | rfl
      · exact (hnew e he).le
      · exact le_refl _
    · rcases hmem.mp he with he | rfl
      · exact hi.newest q hq e he hc
      · exact absurd hc.symm hne
  · intro m' hm'
    rw [enqueueMutation_pc] at hm'
    obtain ⟨e, he, hw⟩ := hi.inPass m' hm'
    exact ⟨e, hmem.mpr (.inl he), hw⟩
  · intro e he
    rw [enqueueMutation_nextSerial]
    rcases hmem.mp he with he | rfl
    · have := hi.fresh e he
      omega
    · omega
  · intro e he e' he' h
    rcases hmem.mp he with he | rfl <;> rcases hmem.mp he' with he' | rfl
    · exact hi.distinct e he e' he' h
    · have := hnew e he
      omega
    · have := hnew e' he'
      omega
    · rfl
  · intro m' v rest hpc
    rw [enqueueMutation_pc] at hpc
    rw [enqueueMutation_delivered]
    exact hi.replied m' v rest hpc
  · intro e he
    rcases hmem.mp he with he | rfl
    · by_cases hc : e.clientId = e₀.clientId
      · exact .inl ⟨e₀, hmem.mpr (.inr rfl), hc.symm, hnew e he⟩
      by_cases hs : Superseded s e
      · obtain ⟨e', he', h⟩ := hs
        exact .inl ⟨e', hmem.mpr (.inl he'), h⟩
      rcases (hi.accounted e he).resolve_left hs with ⟨d, hd, hw⟩ | h | h
      · refine .inr (.inl ⟨d, ?_, hw⟩)
        rwa [enqueueMutation_delivered]
      · refine .inr (.inr (.inl ?_))
        rcases hi.kept_readQueue he hs now h with ⟨q, hq, hw⟩ | hf
        · rw [readQueue_queue, mem_filter] at hq
          exact .inl ⟨q, hqueue.mpr (.inr ⟨hq, fun hk => hc (hw.2.1.symm.trans hk)⟩), hw⟩
        · exact .inr hf
      · refine .inr (.inr (.inr ?_))
        rwa [enqueueMutation_pc]
    · exact .inr (.inr (.inl (.inl ⟨e₀, hqueue.mpr (.inl rfl), SameWrite.refl _⟩)))

/-- After dropping a `clientId`, a mutation kept so far is still kept, unless it was
the dropped entry. -/
theorem Inv.kept_removeEntry (hi : Inv s) (he : e ∈ s.accepted) (hs : ¬Superseded s e)
    (hm : ∃ e ∈ s.accepted, SameWrite m e)
    (hcond : ∀ q ∈ s.queue, isFresh now q = true → q.clientId = m.clientId →
      q.serial = m.serial) (h : Kept s e) :
    Kept (removeEntry m.clientId now s) e ∨ SameWrite m e := by
  rcases hi.kept_readQueue he hs now h with ⟨q, hq, hw⟩ | hf
  · rw [readQueue_queue, mem_filter] at hq
    by_cases hc : q.clientId = m.clientId
    · obtain ⟨e', he', hw'⟩ := hm
      have hserial := hcond q hq.1 hq.2 hc
      have : e' = e := hi.distinct e' he' e he (by rw [← hw'.1, ← hw.1, hserial])
      exact .inr (this ▸ hw')
    · refine .inl (.inl ⟨q, ?_, hw⟩)
      rw [removeEntry_queue]
      exact mem_erase.mpr ⟨mem_filter.mpr hq, hc⟩
  · exact .inl (.inr hf)

/-- Dropping a `clientId` keeps the invariant when every mutation it drops is
accounted for otherwise. -/
theorem Inv.removeEntry (hi : Inv s) (clientId : String) (now : ℤ) (pc : Pc)
    (hpass : ∀ q ∈ pc.entries, q ∈ s.pc.entries) (hpc : ∀ m v rest, pc ≠ .settling m (.ok v) rest)
    (hkept : ∀ e ∈ s.accepted, ¬Superseded s e → Kept s e ∨ BeingRecorded s.pc e →
      Delivered s e ∨ Kept (removeEntry clientId now s) e ∨ BeingRecorded pc e) :
    Inv { removeEntry clientId now s with pc := pc } := by
  have hdel := removeEntry_delivered clientId now s
  refine hi.frame (removeEntry_accepted clientId now s) (removeEntry_nextSerial clientId now s)
    (fun d hd => hdel.symm ▸ hd) ?_ ?_ (fun q hq => .inl (hpass q hq))
    (fun m v rest h => absurd h (hpc m v rest)) ?_
  · simp only [removeEntry_queue]
    exact (hi.unique.filter _).erase _
  · intro q hq
    simp only [removeEntry_queue] at hq
    exact ⟨q, (mem_filter.mp (mem_erase.mp hq).1).1, SameWrite.refl q⟩
  · intro e he hs h
    rcases hkept e he hs h with ⟨d, hd, hw⟩ | h | h
    · exact .inl ⟨d, hdel.symm ▸ hd, hw⟩
    · exact .inr (.inl h)
    · exact .inr (.inr h)

/-- Storing a retry count keeps the invariant. -/
theorem Inv.bumpRetries (hi : Inv s) (clientId : String) (retries : ℕ) (now : ℤ)
    (rest : List QueuedMutation) (hpass : ∀ q ∈ rest, q ∈ s.pc.entries)
    (hnone : ∀ e, ¬BeingRecorded s.pc e) :
    Inv { bumpRetries clientId retries now s with pc := .looping rest } := by
  have hkeys : ∀ q : QueuedMutation,
      clientKey { q with retries := some retries } = clientKey q := fun _ => rfl
  refine hi.frame (bumpRetries_accepted clientId retries now s)
    (bumpRetries_nextSerial clientId retries now s)
    (fun d hd => (bumpRetries_delivered clientId retries now s).symm ▸ hd) ?_ ?_
    (fun q hq => .inl (hpass q hq)) (fun _ _ _ h => by cases h) ?_
  · simp only [bumpRetries_queue]
    exact (hi.unique.filter _).of_map_eq (map_key_modify hkeys _)
  · intro q hq
    simp only [bumpRetries_queue] at hq
    rcases mem_of_mem_modify hq with hq | ⟨q₀, hq₀, -, rfl⟩
    · exact ⟨q, (mem_filter.mp hq).1, SameWrite.refl q⟩
    · exact ⟨q₀, (mem_filter.mp hq₀).1, (SameWrite.refl q₀).retries _⟩
  · rintro e he hs (h | h)
    · refine .inr (.inl ?_)
      rcases hi.kept_readQueue he hs now h with ⟨q, hq, hw⟩ | ⟨f, hf, hr⟩
      · left
        rw [readQueue_queue] at hq
        rcases mem_bumpRetries_of_mem clientId retries now s hq with hq | hq
        · exact ⟨q, hq, hw⟩
        · exact ⟨_, hq, hw.retries _⟩
      · exact .inr ⟨f, by simpa only [bumpRetries_failedSync] using hf, hr⟩
    · exact absurd h (hnone e)

theorem inv_settle (hi : Inv s) {r : Reply} (hpc : s.pc = .settling m r rest)
    (hcond : drops m r = true → ∀ q ∈ s.queue, isFresh now q = true →
      q.clientId = m.clientId → q.serial = m.serial) (hset : Settles m rest now s r t) : Inv t := by
  have hentries : s.pc.entries = m :: rest := by rw [hpc]; rfl
  have hrest : ∀ q ∈ rest, q ∈ s.pc.entries :=
    fun q hq => by rw [hentries]; exact mem_cons_of_mem _ hq
  have hm : ∃ e ∈ s.accepted, SameWrite m e := hi.inPass m (by simp [hentries])
  have hnone : ∀ e, ¬BeingRecorded s.pc e := by
    rintro e ⟨m', error, rest', h, -⟩
    rw [hpc] at h
    cases h
  -- A delivered entry accounts for itself.
  have hok : ∀ v pc', r = .ok v → ∀ e ∈ s.accepted, ¬Superseded s e →
      Kept s e ∨ BeingRecorded s.pc e →
      Delivered s e ∨ Kept (removeEntry m.clientId now s) e ∨ BeingRecorded pc' e := by
    rintro v pc' rfl e he hs (h | h)
    · rcases hi.kept_removeEntry he hs hm (hcond rfl) h with h | h
      · exact .inr (.inl h)
      · exact .inl ⟨m, hi.replied m v rest hpc, h⟩
    · exact absurd h (hnone e)
  cases hset with
  | learns v realId hid =>
    exact hi.removeEntry _ now _ (fun q hq => hentries ▸ hq) (fun _ _ _ h => by cases h)
      (hok v _ rfl)
  | removes v hid => exact hi.removeEntry _ now _ hrest (fun _ _ _ h => by cases h) (hok v _ rfl)
  | fails status message hgives =>
    refine hi.removeEntry _ now _ (fun q hq => hentries ▸ hq) (fun _ _ _ h => by cases h) ?_
    rintro e he hs (h | h)
    · rcases hi.kept_removeEntry he hs hm (hcond hgives) h with h | h
      · exact .inr (.inl h)
      · exact .inr (.inr ⟨m, _, rest, rfl, h⟩)
    · exact absurd h (hnone e)
  | keeps status message hgives => exact hi.bumpRetries _ _ now rest hrest hnone

theorem inv_record (hi : Inv s) {error : String} (now : ℤ) (hpc : s.pc = .recording m error rest)
    (hcond : (∃ e ∈ s.accepted, e.clientId = m.clientId ∧ m.serial < e.serial) →
      ∃ q ∈ s.queue, q.clientId = m.clientId) :
    Inv { recordFailed m error now s with pc := .looping rest } := by
  have hentries : s.pc.entries = m :: rest := by rw [hpc]; rfl
  obtain ⟨e₀, he₀, hw₀⟩ := hi.inPass m (by simp [hentries])
  have hacc : ({ recordFailed m error now s with pc := .looping rest } : State).accepted
      = s.accepted := by simp [State.accepted, recordFailed]
  have hdel : ({ recordFailed m error now s with pc := .looping rest } : State).delivered
      = s.delivered := by simp [State.delivered, recordFailed]
  refine hi.frame hacc rfl (fun d hd => hdel.symm ▸ hd) hi.unique
    (fun q hq => ⟨q, hq, SameWrite.refl q⟩)
    (fun q hq => .inl (by rw [hentries]; exact mem_cons_of_mem _ hq))
    (fun _ _ _ h => by cases h) ?_
  intro e he hs h
  refine .inr (.inl ?_)
  -- An item of the same `clientId` is replaced: by one that shows `e`, or `e` is queued.
  by_cases hc : m.clientId = e.clientId
  · have hle : e₀.serial ≤ e.serial := by
      by_contra hlt
      exact hs ⟨e₀, he₀, hw₀.2.1.symm.trans hc, by omega⟩
    by_cases heq : e₀.serial = e.serial
    · have hw : SameWrite m e := hi.distinct e₀ he₀ e he heq ▸ hw₀
      exact .inr ⟨failedItem m error now, mem_putLast.mpr (.inl rfl),
        records_failedItem hw error now⟩
    · obtain ⟨q, hq, hqc⟩ := hcond ⟨e, he, hc.symm, by have := hw₀.1; omega⟩
      exact .inl ⟨q, hq, hi.sameWrite_of_mem_queue he hs hq (hqc.trans hc)⟩
  · rcases h with (⟨q, hq, hw⟩ | hf) | ⟨m', error', rest', h, hw⟩
    · exact .inl ⟨q, hq, hw⟩
    · exact .inr (records_putLast (fun h => absurd h hc) (.inl hf))
    · rw [hpc] at h
      cases h
      exact absurd hw.2.1 hc

theorem inv_rewrite (hi : Inv s) {realId : String} (now : ℤ)
    (hpc : s.pc = .rewriting m realId rest) :
    Inv { (rewriteUrls m.clientId realId now s).note (.learned m.clientId realId) with
      pc := .looping rest } := by
  have hentries : s.pc.entries = m :: rest := by rw [hpc]; rfl
  have hacc : ((rewriteUrls m.clientId realId now s).note (.learned m.clientId realId)).accepted
      = s.accepted := by
    rw [← rewriteUrls_accepted m.clientId realId now s]
    simp [State.accepted, Event.accepted?]
  have hdel : ((rewriteUrls m.clientId realId now s).note (.learned m.clientId realId)).delivered
      = s.delivered := by
    rw [← rewriteUrls_delivered m.clientId realId now s]
    simp [State.delivered, Event.delivered?]
  refine hi.frame hacc (rewriteUrls_nextSerial m.clientId realId now s)
    (fun d hd => hdel.symm ▸ hd) ?_ ?_
    (fun q hq => .inl (by rw [hentries]; exact mem_cons_of_mem _ hq))
    (fun _ _ _ h => by cases h) ?_
  · simp only [note_queue, rewriteUrls_queue]
    exact (hi.unique.filter (isFresh now)).of_map_eq (by rw [map_map]; rfl)
  · intro q hq
    simp only [note_queue, rewriteUrls_queue, mem_map] at hq
    obtain ⟨q₀, hq₀, rfl⟩ := hq
    exact ⟨q₀, (mem_filter.mp hq₀).1, (SameWrite.refl q₀).url _⟩
  · rintro e he hs (h | ⟨m', error, rest', h, -⟩)
    · refine .inr (.inl ?_)
      rcases hi.kept_readQueue he hs now h with ⟨q, hq, hw⟩ | ⟨f, hf, hr⟩
      · left
        rw [readQueue_queue] at hq
        simp only [note_queue, rewriteUrls_queue]
        exact ⟨_, mem_map.mpr ⟨q, hq, rfl⟩, hw.url _⟩
      · exact .inr ⟨f, by simpa only [note_failedSync, rewriteUrls_failedSync] using hf, hr⟩
    · rw [hpc] at h
      cases h

/-- The drain moves on without touching the queue or the failed list. -/
theorem Inv.move (hi : Inv s) (hqueue : t.queue = s.queue) (hfailed : t.failedSync = s.failedSync)
    (hacc : t.accepted = s.accepted) (hnext : t.nextSerial = s.nextSerial)
    (hdel : ∀ d ∈ s.delivered, d ∈ t.delivered) (hpass : ∀ m ∈ t.pc.entries, m ∈ s.pc.entries)
    (hreplied : ∀ m v rest, t.pc = .settling m (.ok v) rest → m ∈ t.delivered)
    (hnone : ∀ e, ¬BeingRecorded s.pc e) : Inv t := by
  refine hi.frame hacc hnext hdel (hqueue ▸ hi.unique) ?_ (fun q hq => .inl (hpass q hq))
    hreplied ?_
  · intro q hq
    rw [hqueue] at hq
    exact ⟨q, hq, SameWrite.refl q⟩
  · rintro e - - (h | h)
    · exact .inr (.inl (by rw [Kept, hqueue, hfailed]; exact h))
    · exact absurd h (hnone e)

theorem not_beingRecorded {pc : Pc} (h : ∀ m error rest, pc ≠ .recording m error rest)
    (e : QueuedMutation) : ¬BeingRecorded pc e :=
  fun ⟨m, error, rest, hpc, _⟩ => h m error rest hpc

/-- Every step that keeps the newer mutations keeps the invariant. -/
theorem inv_step {a : Action} (hi : Inv s) (hc : KeepsNewer s a) (h : step s a = some t) :
    Inv t := by
  cases Step.of_step h with
  | enqueue m createdAt now => exact inv_enqueue hi m createdAt now
  | skip => exact hi
  | start now hpc =>
    have hnone : ∀ e, ¬BeingRecorded s.pc e :=
      not_beingRecorded (by rw [hpc]; exact fun _ _ _ h => by cases h)
    refine hi.frame (readQueue_accepted now s) (readQueue_nextSerial now s)
      (fun d hd => (readQueue_delivered now s).symm ▸ hd) ?_ ?_ ?_ (fun _ _ _ h => by cases h) ?_
    · simp only [readQueue_queue]
      exact hi.unique.filter _
    · intro q hq
      simp only [readQueue_queue] at hq
      exact ⟨q, (mem_filter.mp hq).1, SameWrite.refl q⟩
    · intro m hm
      have hm := mem_sortQueue.mp hm
      rw [readQueue_queue] at hm
      exact .inr (mem_filter.mp hm).1
    · rintro e he hs (h | h)
      · exact .inr (.inl (hi.kept_readQueue he hs now h))
      · exact absurd h (hnone e)
  | send m rest hpc =>
    refine hi.move rfl rfl ?_ rfl ?_ ?_ (fun _ _ _ h => by cases h)
      (not_beingRecorded (by rw [hpc]; exact fun _ _ _ h => by cases h))
    · simp [State.accepted, Event.accepted?]
    · simp [State.delivered, Event.delivered?]
    · rw [hpc]
      exact fun _ hm => hm
  | succeed m rest v offline hpc =>
    refine hi.move rfl rfl ?_ rfl ?_ ?_ ?_
      (not_beingRecorded (by rw [hpc]; exact fun _ _ _ h => by cases h))
    · simp [State.accepted, Event.accepted?]
    · intro d hd
      simp only [State.delivered, note_log, filterMap_append, mem_append]
      exact .inl hd
    · rw [hpc]
      exact fun _ hm => hm
    · intro m' v' rest' h
      cases h
      simp [State.delivered, Event.delivered?]
  | stop m rest status message hpc =>
    exact hi.move rfl rfl rfl rfl (fun _ hd => hd) (fun _ hm => by cases hm)
      (fun _ _ _ h => by cases h)
      (not_beingRecorded (by rw [hpc]; exact fun _ _ _ h => by cases h))
  | fail m rest status message hpc =>
    refine hi.move rfl rfl rfl rfl (fun _ hd => hd) ?_ (fun _ _ _ h => by cases h)
      (not_beingRecorded (by rw [hpc]; exact fun _ _ _ h => by cases h))
    rw [hpc]
    exact fun _ hm => hm
  | settle m r rest now _ hpc hset =>
    simp only [KeepsNewer, DropsNoOther, hpc] at hc
    exact inv_settle hi hpc hc hset
  | record m error rest now hpc =>
    simp only [KeepsNewer, ReportsNoOther, hpc] at hc
    exact inv_record hi now hpc hc
  | rewrite m realId rest now hpc => exact inv_rewrite hi now hpc
  | finish hpc =>
    exact hi.move rfl rfl rfl rfl (fun _ hd => hd) (fun _ hm => by cases hm)
      (fun _ _ _ h => by cases h)
      (not_beingRecorded (by rw [hpc]; exact fun _ _ _ h => by cases h))

/-! ## From a stored queue -/

theorem initial_accepted (q : StoredQueue) (failedSync : List FailedSyncItem)
    (reconciler : Bool) : (initial q failedSync reconciler).accepted = number 0 q.entries := by
  simp [State.accepted, initial, filterMap_map, Function.comp_def, Event.accepted?]

theorem inv_initial (q : StoredQueue) (failedSync : List FailedSyncItem) (reconciler : Bool) :
    Inv (initial q failedSync reconciler) := by
  have hacc := initial_accepted q failedSync reconciler
  have hunique := uniqueKeys_number 0 q
  refine ⟨hunique, ?_, ?_, (fun _ hm => by cases hm), ?_, ?_, (fun _ _ _ h => by cases h), ?_⟩
  · exact fun e he => ⟨e, hacc ▸ he, SameWrite.refl e⟩
  · intro e he e' he' hc
    rw [hacc] at he'
    rw [hunique.eq_of_mem he he' hc.symm]
  · intro e he
    rw [hacc] at he
    have := serial_lt_of_mem_number he
    simpa [initial] using this
  · intro e he e' he' h
    rw [hacc] at he he'
    exact eq_of_serial_eq_number he he' h
  · intro e he
    rw [hacc] at he
    exact .inr (.inr (.inl (.inl ⟨e, he, SameWrite.refl e⟩)))

/-- **No update is lost** in a run whose steps keep the newer mutations: for every
stored queue and every interleaving of `enqueueMutation` calls with a drain, once
the drain is over every accepted mutation is superseded, delivered, queued or
shown as failed. -/
theorem drainQueue_noLostUpdate (q : StoredQueue) (failedSync : List FailedSyncItem)
    (reconciler : Bool) (as : List Action) (s : State)
    (hrun : Machine.run step (initial q failedSync reconciler) as = some s)
    (hkeeps : Machine.Meets step KeepsNewer (initial q failedSync reconciler) as)
    (hidle : s.pc = .idle) : NoLostUpdate s := by
  have hi : Inv s := Machine.inv_run_of_meets (fun _ _ _ hi hc h => inv_step hi hc h)
    (inv_initial q failedSync reconciler) hkeeps hrun
  intro e he
  rcases hi.accounted e he with h | h | h | ⟨m, error, rest, hpc, -⟩
  · exact Or.inl h
  · exact Or.inr (Or.inl h)
  · exact Or.inr (Or.inr h)
  · rw [hidle] at hpc
    cases hpc

/-! ## A lost update -/

/-- The picks of one profile, written as `picks`. -/
def picksWrite (picks : String) : Mutation where
  clientId := "PUT:/profiles/p1"
  url := "/profiles/p1"
  method := .put
  body := some (.obj [("picks", .str picks)])

/-- One write of the picks is stored. -/
def onePicksWrite : StoredQueue := ⟨[(picksWrite "must", 0)], by decide⟩

/-- The deletion of a poll. -/
def pollDelete : Mutation where
  clientId := "DELETE:/crews/c1/polls/x"
  url := "/crews/c1/polls/x"
  method := .delete

/-- Another resource is written while the picks are in flight, and the picks change
again once the drain is over. -/
def laterWriteRun : List Action :=
  [.start false 1, .send, .enqueue pollDelete none 2, .reply (.ok .null) false, .settle 3,
    .finish, .enqueue (picksWrite "maybe") none 4]

/-- The promise on a run in which nothing is enqueued for the entry in flight. -/
theorem noLostUpdate_laterWriteRun :
    ∃ s, Machine.run step (initial onePicksWrite [] true) laterWriteRun = some s ∧ NoLostUpdate s :=
  ⟨_, rfl, drainQueue_noLostUpdate onePicksWrite [] true laterWriteRun _ rfl (by decide) rfl⟩

/-- The picks change while their older write is in flight. -/
def newerWriteRun : List Action :=
  [.start false 1, .send, .enqueue (picksWrite "maybe") none 2, .reply (.ok .null) false,
    .settle 3, .finish]

/-- **The newer write is lost**: the completion of the older one removes it, and it
is nowhere else. -/
theorem newer_mutation_lost :
    ∃ s, Machine.run step (initial onePicksWrite [] true) newerWriteRun = some s ∧
      s.pc = .idle ∧ ¬NoLostUpdate s := by
  refine ⟨_, rfl, rfl, fun h => ?_⟩
  rcases h { picksWrite "maybe" with createdAt := 2, serial := 1 }
    (List.mem_cons_of_mem _ (List.mem_cons_self ..)) with
    ⟨e, he, -, hlt⟩ | ⟨d, hd, hw⟩ | ⟨q, hq, -⟩ | ⟨f, hf, -⟩
  · have hlast : ∀ e ∈ [({ picksWrite "must" with createdAt := 0, serial := 0 } : QueuedMutation),
        { picksWrite "maybe" with createdAt := 2, serial := 1 }], e.serial ≤ 1 := by decide
    exact absurd hlt (not_lt.mpr (hlast e he))
  · have hfirst : ∀ d ∈ [({ picksWrite "must" with createdAt := 0, serial := 0 } :
        QueuedMutation)], d.serial ≠ 1 := by decide
    exact hfirst d hd hw.1
  · cases hq
  · cases hf

end FestivalPlanner.OfflineQueue
