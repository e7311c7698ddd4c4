import FestivalPlanner.Sync.NoLostUpdate

/-!
# One pass of the drain

What becomes of the entries of the snapshot one `drainQueue` starts from, when
nothing else touches the queue: whatever the replies, whenever the device goes
offline, however the clock advances.

Each entry is attempted at most once, oldest first.  Whether it ends in exactly one
of the states delivered, queued and failed depends on the clock: `readQueue`, called
again by the section that settles a reply, surfaces an entry as expired even when it
was just delivered (`delivered_and_failed`).

* `ExclusiveOutcome` — at most one attempt, in order, exactly one outcome;
* `SettledFresh` — the condition on a step: a delivered entry is younger than the
  staleness limit when its reply is settled;
* `drainPass_exclusive_iff` — a pass has exclusive outcomes exactly when every one of
  its steps meets that condition.
-/

namespace FestivalPlanner.OfflineQueue

open Js List Machine Keyed Function

/-! ## Outcomes -/

/-- The mutation is in the queue. -/
def Queued (s : State) (p : QueuedMutation) : Prop := ∃ q ∈ s.queue, SameWrite q p

/-- The mutation was surfaced as failed. -/
@[grind =] def Failed (s : State) (p : QueuedMutation) : Prop := ∃ r ∈ s.recorded, SameWrite r p

/-- Exactly one of delivered, queued and failed. -/
def Outcome (s : State) (p : QueuedMutation) : Prop :=
  (Delivered s p ∧ ¬Queued s p ∧ ¬Failed s p) ∨
    (¬Delivered s p ∧ Queued s p ∧ ¬Failed s p) ∨
    (¬Delivered s p ∧ ¬Queued s p ∧ Failed s p)

/-- What a pass over a snapshot should do. -/
structure ExclusiveOutcome (snapshot : List QueuedMutation) (s : State) : Prop where
  /-- Attempts follow the snapshot, -/
  attempts : s.sent <+: snapshot
  /-- are made at most once for each entry, -/
  once : (s.sent.map QueuedMutation.serial).Nodup
  /-- and oldest first. -/
  inOrder : s.sent.Pairwise (fun a b => a.createdAt ≤ b.createdAt)
  /-- Every entry has exactly one outcome, -/
  outcome : ∀ p ∈ snapshot, Outcome s p
  /-- and a failed one is shown. -/
  shown : ∀ p ∈ snapshot, Failed s p → ∃ f ∈ s.failedSync, Records f p

/-- The time an action reads from the clock. -/
def Action.now? : Action → Option ℤ
  | enqueue _ _ now | start _ now | settle now | record now | rewrite now => some now
  | send | reply _ _ | finish => none

/-- The steps of a running drain. -/
def Action.isDrain : Action → Bool
  | send | reply _ _ | settle _ | record _ | rewrite _ | finish => true
  | enqueue _ _ _ | start _ _ => false

/-- The queue as a machine with a clock that only advances. -/
abbrev timedStep : State × ℤ → Action → Option (State × ℤ) := clocked Action.now? step

/-- A delivered entry is still fresh when the section that settles its reply reads
the queue. -/
def FreshWhenSettled (now : ℤ) : Pc → Prop
  | .settling m (.ok _) _ => isFresh now m = true
  | _ => True

/-- The condition on a step of a pass. -/
def SettledFresh (c : State × ℤ) : Action → Prop
  | .settle now => FreshWhenSettled now c.1.pc
  | _ => True

instance FreshWhenSettled.decidable (now : ℤ) : ∀ pc, Decidable (FreshWhenSettled now pc) := fun pc => by
  unfold FreshWhenSettled
  split <;> infer_instance

instance SettledFresh.decidable (c : State × ℤ) : ∀ a, Decidable (SettledFresh c a)
  | .settle now => inferInstanceAs (Decidable (FreshWhenSettled now c.1.pc))
  | .enqueue _ _ _ | .start _ _ | .send | .reply _ _ | .record _ | .rewrite _ | .finish =>
    .isTrue trivial

/-! ## What reading the queue does to an entry -/

variable {p m : QueuedMutation} {s t : State} {now clock : ℤ} {rest : List QueuedMutation}
  {c d : State × ℤ} {a : Action}

theorem SameWrite.isFresh_eq {q : QueuedMutation} (h : SameWrite q p) (now : ℤ) :
    isFresh now q = isFresh now p := by rw [isFresh, isFresh, h.2.2.2.2]

/-- A section that reads the queue at `now` keeps the fresh entries, surfaces the
stale ones and delivers nothing. -/
structure Reads (s t : State) (now : ℤ) (p : QueuedMutation) : Prop where
  queued : Queued t p ↔ Queued s p ∧ isFresh now p = true
  failed : Failed t p ↔ Failed s p ∨ Queued s p ∧ isFresh now p = false
  delivered : Delivered t p ↔ Delivered s p

/-- A queue made of the fresh entries, each still the same write, holds the fresh
mutations. -/
theorem queued_of_fresh
    (hfrom : ∀ q ∈ t.queue, ∃ q₀ ∈ s.queue.filter (isFresh now), SameWrite q q₀)
    (hinto : ∀ q₀ ∈ s.queue.filter (isFresh now), SameWrite q₀ p →
      ∃ q ∈ t.queue, SameWrite q q₀) : Queued t p ↔ Queued s p ∧ isFresh now p = true := by
  constructor
  · rintro ⟨q, hq, hw⟩
    obtain ⟨q₀, hq₀, hw₀⟩ := hfrom q hq
    obtain ⟨hq₀, hf⟩ := mem_filter.mp hq₀
    have hw₁ : SameWrite q₀ p := hw₀.symm.trans hw
    exact ⟨⟨q₀, hq₀, hw₁⟩, hw₁.isFresh_eq now ▸ hf⟩
  · rintro ⟨⟨q₀, hq₀, hw⟩, hf⟩
    obtain ⟨q, hq, hw'⟩ :=
      hinto q₀ (mem_filter.mpr ⟨hq₀, (hw.isFresh_eq now).symm ▸ hf⟩) hw
    exact ⟨q, hq, hw'.trans hw⟩

theorem failed_readQueue :
    Failed (readQueue now s) p ↔ Failed s p ∨ Queued s p ∧ isFresh now p = false := by
  simp only [Failed, readQueue_recorded, mem_append, mem_filter, Bool.not_eq_true']
  constructor
  · rintro ⟨r, hr | ⟨hr, hf⟩, hw⟩
    · exact .inl ⟨r, hr, hw⟩
    · exact .inr ⟨⟨r, hr, hw⟩, hw.isFresh_eq now ▸ hf⟩
  · rintro (⟨r, hr, hw⟩ | ⟨⟨q, hq, hw⟩, hf⟩)
    · exact ⟨r, .inl hr, hw⟩
    · exact ⟨q, .inr ⟨hq, (hw.isFresh_eq now).symm ▸ hf⟩, hw⟩

theorem delivered_removeEntry (clientId : String) (now : ℤ) :
    Delivered (removeEntry clientId now s) p ↔ Delivered s p := by
  rw [Delivered, removeEntry_delivered, Delivered]

/-- Dropping another `clientId` reads the queue. -/
theorem reads_removeEntry {clientId : String} (hne : p.clientId ≠ clientId) :
    Reads s (removeEntry clientId now s) now p where
  queued := by
    refine queued_of_fresh (fun q hq => ?_) (fun q₀ hq₀ hw => ?_)
    · rw [removeEntry_queue, mem_erase] at hq
      exact ⟨q, hq.1, SameWrite.refl q⟩
    · refine ⟨q₀, ?_, SameWrite.refl q₀⟩
      rw [removeEntry_queue, mem_erase]
      exact ⟨hq₀, fun h => hne (hw.2.1.symm.trans h)⟩
  failed := failed_readQueue
  delivered := delivered_removeEntry clientId now

/-- Storing a retry count reads the queue, for the entry counted too. -/
theorem reads_bumpRetries {clientId : String} {retries : ℕ} :
    Reads s (bumpRetries clientId retries now s) now p where
  queued := by
    refine queued_of_fresh (fun q hq => ?_) (fun q₀ hq₀ _ => ?_)
    · rw [bumpRetries_queue] at hq
      rcases mem_of_mem_modify hq with hq | ⟨q₀, hq₀, -, rfl⟩
      · exact ⟨q, hq, SameWrite.refl q⟩
      · exact ⟨q₀, hq₀, (SameWrite.refl q₀).retries _⟩
    · rcases mem_bumpRetries_of_mem clientId retries now s hq₀ with hq | hq
      · exact ⟨q₀, hq, SameWrite.refl q₀⟩
      · exact ⟨_, hq, (SameWrite.refl q₀).retries _⟩
  failed := by
    rw [Failed, State.recorded, bumpRetries_log]
    exact failed_readQueue
  delivered := by rw [Delivered, bumpRetries_delivered, Delivered]

/-- So does rewriting the urls. -/
theorem reads_rewriteUrls (s : State) (now : ℤ) (tempId realId : String) (p : QueuedMutation) :
    Reads s (rewriteUrls tempId realId now s) now p where
  queued := by
    refine queued_of_fresh (fun q hq => ?_) (fun q₀ hq₀ _ => ?_)
    · rw [rewriteUrls_queue, mem_map] at hq
      obtain ⟨q₀, hq₀, rfl⟩ := hq
      exact ⟨q₀, hq₀, (SameWrite.refl q₀).url _⟩
    · rw [rewriteUrls_queue]
      exact ⟨_, mem_map.mpr ⟨q₀, hq₀, rfl⟩, (SameWrite.refl q₀).url _⟩
  failed := by
    rw [Failed, State.recorded, rewriteUrls_log]
    exact failed_readQueue
  delivered := by rw [Delivered, rewriteUrls_delivered, Delivered]

/-- An exclusive outcome survives a reading of the queue. -/
theorem Reads.outcome (h : Reads s t now p) (ho : Outcome s p) : Outcome t p := by
  rw [Outcome, h.queued, h.failed, h.delivered]
  cases isFresh now p <;> simp <;> simp only [Outcome] at ho <;> tauto

/-- Not delivered by this pass yet, and in exactly one of the queue and the failed
entries, in the latter because it is stale. -/
@[grind =] def Alive (s : State) (clock : ℤ) (p : QueuedMutation) : Prop :=
  (Queued s p ∧ ¬Failed s p) ∨ (¬Queued s p ∧ Failed s p ∧ isFresh clock p = false)

theorem isFresh_mono (hle : clock ≤ now) (h : isFresh clock p = false) : isFresh now p = false := by
  simp only [isFresh, decide_eq_false_iff_not] at h ⊢
  omega

theorem Reads.alive (h : Reads s t now p) (hle : clock ≤ now) (ha : Alive s clock p) :
    Alive t now p := by
  rw [Alive, h.queued, h.failed]
  rcases ha with ⟨hq, hf⟩ | ⟨hq, hf, hstale⟩
  · cases hfresh : isFresh now p with
    | true => exact .inl ⟨⟨hq, rfl⟩, by simp [hf]⟩
    | false => exact .inr ⟨by simp, .inr ⟨hq, rfl⟩, rfl⟩
  · exact .inr ⟨fun h => hq h.1, .inl hf, isFresh_mono hle hstale⟩

/-- Where the drain goes next does not matter to the entry. -/
theorem Reads.withPc (h : Reads s t now p) (pc : Pc) : Reads s { t with pc := pc } now p :=
  ⟨h.queued, h.failed, h.delivered⟩

/-- A step carries what is known of an entry over to the next state, whether the
entry waits or has its outcome. -/
structure Carries (s t : State) (clock now : ℤ) (p : QueuedMutation) : Prop where
  waiting : ¬Delivered s p ∧ Alive s clock p → ¬Delivered t p ∧ Alive t now p
  outcome : Outcome s p → Outcome t p

theorem Reads.carries (h : Reads s t now p) (hle : clock ≤ now) : Carries s t clock now p where
  waiting := fun ⟨hd, ha⟩ => ⟨fun h' => hd (h.delivered.mp h'), h.alive hle ha⟩
  outcome := h.outcome

/-- A step that leaves the entry where it is. -/
theorem carries_of_iff (hle : clock ≤ now) (hq : Queued t p ↔ Queued s p)
    (hf : Failed t p ↔ Failed s p) (hd : Delivered t p ↔ Delivered s p) :
    Carries s t clock now p where
  waiting := by
    rintro ⟨hnot, ha⟩
    refine ⟨fun h => hnot (hd.mp h), ?_⟩
    rw [Alive, hq, hf]
    exact ha.imp id (fun h => ⟨h.1, h.2.1, isFresh_mono hle h.2.2⟩)
  outcome := by
    rw [Outcome, Outcome, hq, hf, hd]
    exact id

theorem Alive.outcome (hd : ¬Delivered s p) (h : Alive s clock p) : Outcome s p := by
  rcases h with ⟨hq, hf⟩ | ⟨hq, hf, -⟩
  · exact .inr (.inl ⟨hd, hq, hf⟩)
  · exact .inr (.inr ⟨hd, hq, hf⟩)

/-! ## The invariant of a pass -/

/-- What holds of the entry the drain works on. -/
def CurrentOk (s : State) (clock : ℤ) : Pc → Prop
  | .idle | .looping _ => True
  | .inFlight m _ | .settling m (.error _ _) _ => ¬Delivered s m ∧ Alive s clock m
  | .settling m (.ok _) _ => Delivered s m ∧ Alive s clock m
  | .recording m _ _ => ¬Delivered s m ∧ ¬Queued s m
  | .rewriting m _ _ => Outcome s m

/-- What holds during a pass that started from the queue `stored` and iterates
`snapshot`, as long as its steps meet `SettledFresh`. -/
structure PassInv (stored snapshot : List QueuedMutation) (s : State) (clock : ℤ) : Prop where
  /-- One entry a `clientId`, -/
  unique : UniqueKeys clientKey s.queue
  /-- queued or failed entries come from the stored queue, -/
  origin : ∀ q, q ∈ s.queue ∨ q ∈ s.recorded → ∃ e ∈ stored, SameWrite q e
  /-- the failed ones are shown, -/
  shown : ∀ r ∈ s.recorded, ∃ f ∈ s.failedSync, Records f r
  /-- what was sent is the snapshot up to what is left of it, -/
  progress : ∃ later, s.sent ++ later = snapshot ∧ (s.pc ≠ .idle → later = s.pc.rest)
  /-- which is its end. -/
  entries : s.pc.entries <:+ snapshot
  /-- The entry in hand, those still to come, and those done with. -/
  current : CurrentOk s clock s.pc
  waiting : ∀ p ∈ s.pc.rest, ¬Delivered s p ∧ Alive s clock p
  settled : ∀ p ∈ snapshot, p ∉ s.pc.entries → Outcome s p

section Pass

variable {stored snapshot : List QueuedMutation} (hstored : UniqueKeys clientKey stored)
  (hsub : ∀ p ∈ snapshot, p ∈ stored) (hnodup : snapshot.Nodup)

include hstored in
/-- Entries of one `clientId` that come from the stored queue are the same write. -/
theorem sameWrite_of_origin {q r : QueuedMutation} (hq : ∃ e ∈ stored, SameWrite q e)
    (hr : ∃ e ∈ stored, SameWrite r e) (hc : q.clientId = r.clientId) : SameWrite q r := by
  obtain ⟨e, he, hw⟩ := hq
  obtain ⟨e', he', hw'⟩ := hr
  have : e = e' := hstored.eq_of_mem he he' (hw.2.1.symm.trans (hc.trans hw'.2.1))
  exact hw.trans (this ▸ hw'.symm)

include hstored hsub in
theorem clientId_ne_of_ne (hp : p ∈ snapshot) (hm : m ∈ snapshot) (hne : p ≠ m) :
    p.clientId ≠ m.clientId :=
  fun hc => hne (hstored.eq_of_mem (hsub p hp) (hsub m hm) hc)

include hstored in
/-- Recording the stale entries keeps every failed entry shown. -/
theorem PassInv.shown_readQueue (hi : PassInv stored snapshot s clock) :
    ∀ r ∈ (readQueue now s).recorded, ∃ f ∈ (readQueue now s).failedSync, Records f r := by
  intro r hr
  rw [readQueue_recorded, mem_append] at hr
  have horigin : ∃ e ∈ stored, SameWrite r e :=
    hi.origin r (hr.symm.imp (fun h => (mem_filter.mp h).1) id)
  rw [readQueue_failedSync]
  refine records_foldl_putLast (fun m hm hc => ?_) ?_
  · exact sameWrite_of_origin hstored (hi.origin m (.inl (mem_filter.mp hm).1)) horigin hc
  · exact hr.imp (hi.shown r) (fun h => ⟨r, h, SameWrite.refl r⟩)

include hnodup in
/-- A step that works on the entry in hand keeps the invariant, given what it does
to that entry and that it carries the others over. -/
theorem PassInv.stepOn (hi : PassInv stored snapshot s clock) (hs : s.pc.entries = m :: s.pc.rest)
    (hsidle : s.pc ≠ .idle) (hrest : t.pc.rest = s.pc.rest)
    (hunique : UniqueKeys clientKey t.queue)
    (horigin : ∀ q, q ∈ t.queue ∨ q ∈ t.recorded → ∃ e ∈ stored, SameWrite q e)
    (hshown : ∀ r ∈ t.recorded, ∃ f ∈ t.failedSync, Records f r) (hsent : t.sent = s.sent)
    (hcarries : ∀ p ∈ snapshot, p ≠ m → Carries s t clock now p)
    (hm : (t.pc = .looping s.pc.rest ∧ Outcome t m) ∨
      (t.pc.entries = m :: s.pc.rest ∧ CurrentOk t now t.pc)) : PassInv stored snapshot t now := by
  have hsuffix := hi.entries
  rw [hs] at hsuffix
  have hmem : ∀ p ∈ s.pc.rest, p ∈ snapshot :=
    fun p hp => hsuffix.subset (mem_cons_of_mem _ hp)
  have hnotin : m ∉ s.pc.rest := (nodup_cons.mp (hnodup.sublist hsuffix.sublist)).1
  refine ⟨hunique, horigin, hshown, ?_, ?_, ?_, ?_, ?_⟩
  · obtain ⟨later, hlater, hidle⟩ := hi.progress
    exact ⟨later, by rw [hsent, hlater], fun _ => by rw [hrest, hidle hsidle]⟩
  · rcases hm with ⟨hpc, -⟩ | ⟨hpc, -⟩
    · rw [hpc]
      exact (suffix_cons m _).trans hsuffix
    · rw [hpc]
      exact hsuffix
  · rcases hm with ⟨hpc, -⟩ | ⟨-, hcur⟩
    · rw [hpc]
      trivial
    · exact hcur
  · intro p hp
    rw [hrest] at hp
    exact (hcarries p (hmem p hp) (fun h => hnotin (h ▸ hp))).waiting (hi.waiting p hp)
  · intro p hp hnot
    by_cases hpm : p = m
    · rcases hm with ⟨-, hout⟩ | ⟨hpc, -⟩
      · exact hpm ▸ hout
      · exact absurd (by rw [hpc, hpm]; exact mem_cons_self ..) hnot
    · refine (hcarries p hp hpm).outcome (hi.settled p hp fun h => hnot ?_)
      rw [hs] at h
      have hprest : p ∈ s.pc.rest := (mem_cons.mp h).resolve_left hpm
      rcases hm with ⟨hpc, -⟩ | ⟨hpc, -⟩
      · rw [hpc]
        exact hprest
      · rw [hpc]
        exact mem_cons_of_mem _ hprest

include hstored hnodup in
/-- A section that reads the queue keeps the invariant, given what it does to the
entry in hand. -/
theorem PassInv.readSection (hi : PassInv stored snapshot s clock) (hle : clock ≤ now)
    (hs : s.pc.entries = m :: s.pc.rest) (hsidle : s.pc ≠ .idle) (hrest : t.pc.rest = s.pc.rest)
    (hunique : UniqueKeys clientKey t.queue)
    (hqueue : ∀ q ∈ t.queue, ∃ q₀ ∈ s.queue, SameWrite q q₀)
    (hrecorded : t.recorded = (readQueue now s).recorded)
    (hfailed : t.failedSync = (readQueue now s).failedSync) (hsent : t.sent = s.sent)
    (hreads : ∀ p ∈ snapshot, p ≠ m → Reads s t now p)
    (hm : (t.pc = .looping s.pc.rest ∧ Outcome t m) ∨
      (t.pc.entries = m :: s.pc.rest ∧ CurrentOk t now t.pc)) : PassInv stored snapshot t now := by
  refine hi.stepOn hnodup hs hsidle hrest hunique ?_ ?_ hsent
    (fun p hp hne => (hreads p hp hne).carries hle) hm
  · rintro q (hq | hq)
    · obtain ⟨q₀, hq₀, hw⟩ := hqueue q hq
      obtain ⟨e, he, hw'⟩ := hi.origin q₀ (.inl hq₀)
      exact ⟨e, he, hw.trans hw'⟩
    · rw [hrecorded, readQueue_recorded, mem_append, mem_filter] at hq
      exact hi.origin q (hq.symm.imp And.left id)
  · rw [hrecorded, hfailed]
    exact hi.shown_readQueue hstored

include hstored hsub hnodup in
/-- Dropping the entry in hand keeps the invariant, given its state afterwards. -/
theorem PassInv.removeEntry {pc : Pc} (hi : PassInv stored snapshot s clock) (hle : clock ≤ now)
    (hs : s.pc.entries = m :: s.pc.rest) (hsidle : s.pc ≠ .idle) (hrest : pc.rest = s.pc.rest)
    (hm : (pc = .looping s.pc.rest ∧
        Outcome { removeEntry m.clientId now s with pc := pc } m) ∨
      (pc.entries = m :: s.pc.rest ∧
        CurrentOk { removeEntry m.clientId now s with pc := pc } now pc)) :
    PassInv stored snapshot { removeEntry m.clientId now s with pc := pc } now := by
  have hmem : m ∈ snapshot := hi.entries.subset (by rw [hs]; exact mem_cons_self ..)
  refine hi.readSection hstored hnodup hle hs hsidle hrest ?_ ?_ rfl rfl (readQueue_sent now s)
    (fun p hp hne => ?_) hm
  · simp only [removeEntry_queue]
    exact (hi.unique.filter _).erase _
  · intro q hq
    simp only [removeEntry_queue] at hq
    exact ⟨q, (mem_filter.mp (mem_erase.mp hq).1).1, SameWrite.refl q⟩
  · exact (reads_removeEntry (clientId_ne_of_ne hstored hsub hp hmem hne)).withPc pc

include hstored hsub hnodup in
/-- Settling a reply keeps the invariant, when a delivered entry is still fresh. -/
theorem PassInv.settle {r : Reply} (hi : PassInv stored snapshot s clock) (hle : clock ≤ now)
    (hpc : s.pc = .settling m r rest) (hfresh : FreshWhenSettled now s.pc)
    (hset : Settles m rest now s r t) : PassInv stored snapshot t now := by
  have hs : s.pc.entries = m :: s.pc.rest := by rw [hpc]; rfl
  have hsidle : s.pc ≠ .idle := by rw [hpc]; exact fun h => by cases h
  have hrest : rest = s.pc.rest := by rw [hpc]; rfl
  have hcur := hi.current
  rw [hpc] at hcur hfresh
  have hgone : ¬Queued (OfflineQueue.removeEntry m.clientId now s) m := by
    rintro ⟨q, hq, hw⟩
    rw [removeEntry_queue, mem_erase] at hq
    exact hq.2 hw.2.1
  -- A delivered entry that is still fresh was queued so far, and is not surfaced now.
  have hok : ∀ v pc, r = .ok v →
      Outcome { OfflineQueue.removeEntry m.clientId now s with pc := pc } m := by
    rintro v pc rfl
    obtain ⟨hd, ha⟩ := hcur
    have hf : isFresh now m = true := hfresh
    refine .inl ⟨?_, hgone, ?_⟩
    · exact (delivered_removeEntry m.clientId now).mpr hd
    · intro h
      rcases failed_readQueue.mp h with h | ⟨-, hstale⟩
      · rcases ha with ⟨-, hnot⟩ | ⟨-, -, hstale⟩
        · exact hnot h
        · rw [isFresh_mono hle hstale] at hf
          cases hf
      · rw [hf] at hstale
        cases hstale
  cases hset with
  | learns v realId hid =>
    exact hi.removeEntry hstored hsub hnodup hle hs hsidle hrest
      (.inr ⟨by rw [← hrest]; rfl, hok v _ rfl⟩)
  | removes v hid =>
    exact hi.removeEntry hstored hsub hnodup hle hs hsidle hrest
      (.inl ⟨by rw [← hrest], hok v _ rfl⟩)
  | fails status message hgives =>
    refine hi.removeEntry hstored hsub hnodup hle hs hsidle hrest
      (.inr ⟨by rw [← hrest]; rfl, ?_, hgone⟩)
    exact fun h => hcur.1 ((delivered_removeEntry m.clientId now).mp h)
  | keeps status message hgives =>
    have hreads : ∀ p, Reads s
        { bumpRetries m.clientId (m.retries.getD 0 + 1) now s with pc := .looping rest } now p :=
      fun p => reads_bumpRetries.withPc _
    refine hi.readSection hstored hnodup hle hs hsidle hrest ?_ ?_ ?_ ?_ ?_
      (fun p _ _ => hreads p) (.inl ⟨by rw [← hrest], ?_⟩)
    · simp only [bumpRetries_queue]
      have hkeys : ∀ q : QueuedMutation,
          clientKey { q with retries := some (m.retries.getD 0 + 1) } = clientKey q := fun _ => rfl
      exact (hi.unique.filter _).of_map_eq (map_key_modify hkeys _)
    · intro q hq
      simp only [bumpRetries_queue] at hq
      rcases mem_of_mem_modify hq with hq | ⟨q₀, hq₀, -, rfl⟩
      · exact ⟨q, (mem_filter.mp hq).1, SameWrite.refl q⟩
      · exact ⟨q₀, (mem_filter.mp hq₀).1, (SameWrite.refl q₀).retries _⟩
    · simp only [State.recorded, bumpRetries_log]
    · exact bumpRetries_failedSync _ _ _ _
    · simp only [State.sent, bumpRetries_log]
      exact readQueue_sent now s
    · obtain ⟨hd, ha⟩ := ((hreads m).carries hle).waiting hcur
      exact ha.outcome hd

include hstored hsub hnodup in
/-- Recording the entry in hand as failed gives it its outcome. -/
theorem PassInv.record {error : String} (hi : PassInv stored snapshot s clock) (hle : clock ≤ now)
    (hpc : s.pc = .recording m error rest) :
    PassInv stored snapshot { recordFailed m error now s with pc := .looping rest } now := by
  have hs : s.pc.entries = m :: s.pc.rest := by rw [hpc]; rfl
  have hrest : rest = s.pc.rest := by rw [hpc]; rfl
  have hmem : m ∈ snapshot := hi.entries.subset (by rw [hs]; exact mem_cons_self ..)
  have horigin : ∃ e ∈ stored, SameWrite m e := ⟨m, hsub m hmem, SameWrite.refl m⟩
  have hcur := hi.current
  rw [hpc] at hcur
  have hrecorded : ({ recordFailed m error now s with pc := .looping rest } : State).recorded =
      s.recorded ++ [m] := by simp [State.recorded, recordFailed]
  have hdelivered : ({ recordFailed m error now s with pc := .looping rest } : State).delivered =
      s.delivered := by simp [State.delivered, recordFailed]
  refine hi.stepOn hnodup hs (by rw [hpc]; exact fun h => by cases h) hrest hi.unique ?_ ?_
    (by simp [State.sent, recordFailed]) ?_ (.inl ⟨by rw [← hrest], ?_⟩)
  · rintro q (hq | hq)
    · exact hi.origin q (.inl hq)
    · rw [hrecorded, mem_append, mem_singleton] at hq
      rcases hq with hq | rfl
      · exact hi.origin q (.inr hq)
      · exact horigin
  · intro r hr
    rw [hrecorded, mem_append, mem_singleton] at hr
    rcases hr with hr | rfl
    · exact records_putLast (sameWrite_of_origin hstored horigin (hi.origin r (.inr hr)))
        (.inl (hi.shown r hr))
    · exact ⟨_, mem_putLast.mpr (.inl rfl), records_failedItem (SameWrite.refl _) error now⟩
  · intro p hp hne
    have hother : ¬SameWrite m p := fun h => clientId_ne_of_ne hstored hsub hp hmem hne h.2.1.symm
    refine carries_of_iff hle Iff.rfl ?_ (by rw [Delivered, hdelivered, Delivered])
    simp [Failed, hrecorded, or_and_right, exists_or, hother]
  · refine .inr (.inr ⟨?_, hcur.2, m, ?_, SameWrite.refl m⟩)
    · rw [Delivered, hdelivered]
      exact hcur.1
    · rw [hrecorded]
      simp

include hstored hnodup in
/-- Rewriting the urls keeps the outcome of the entry in hand. -/
theorem PassInv.rewrite {realId : String} (hi : PassInv stored snapshot s clock)
    (hle : clock ≤ now) (hpc : s.pc = .rewriting m realId rest) :
    PassInv stored snapshot { (rewriteUrls m.clientId realId now s).note
      (.learned m.clientId realId) with pc := .looping rest } now := by
  have hs : s.pc.entries = m :: s.pc.rest := by rw [hpc]; rfl
  have hrest : rest = s.pc.rest := by rw [hpc]; rfl
  have hcur := hi.current
  rw [hpc] at hcur
  have hreads : ∀ p, Reads s { (rewriteUrls m.clientId realId now s).note
      (.learned m.clientId realId) with pc := .looping rest } now p := by
    intro p
    obtain ⟨hq, hf, hd⟩ := reads_rewriteUrls s now m.clientId realId p
    refine ⟨hq, Iff.trans ?_ hf, Iff.trans ?_ hd⟩
    · simp [Failed, State.recorded, Event.recorded?]
    · simp [Delivered, State.delivered, Event.delivered?]
  refine hi.readSection hstored hnodup hle hs (by rw [hpc]; exact fun h => by cases h) hrest
    ?_ ?_ ?_ ?_ ?_ (fun p _ _ => hreads p) (.inl ⟨by rw [← hrest], (hreads m).outcome hcur⟩)
  · simp only [note_queue, rewriteUrls_queue]
    exact (hi.unique.filter (isFresh now)).of_map_eq (by rw [map_map]; rfl)
  · intro q hq
    simp only [note_queue, rewriteUrls_queue, mem_map] at hq
    obtain ⟨q₀, hq₀, rfl⟩ := hq
    exact ⟨q₀, (mem_filter.mp hq₀).1, (SameWrite.refl q₀).url _⟩
  · simp [State.recorded, Event.recorded?]
  · simp
  · simp [State.sent, Event.sent?]

include hstored hsub hnodup in
/-- Every step of the drain that meets `SettledFresh` keeps the invariant. -/
theorem passInv_step (hi : PassInv stored snapshot c.1 c.2) (hdrain : a.isDrain = true)
    (hc : SettledFresh c a) (h : timedStep c a = some d) : PassInv stored snapshot d.1 d.2 := by
  obtain ⟨s, clock⟩ := c
  obtain ⟨t, now⟩ := d
  obtain ⟨hstep, hle, hnow⟩ := clocked_eq_some h
  simp only at hi hstep hle hnow ⊢
  cases Step.of_step hstep with
  | enqueue | skip | start => cases hdrain
  | send m rest hpc =>
    obtain ⟨later, hlater, hidle⟩ := hi.progress
    have hlater' : later = m :: rest := by
      rw [hidle (by rw [hpc]; exact fun h => by cases h), hpc]
      rfl
    have hentries := hi.entries
    have hwaiting := hi.waiting
    have hsettled := hi.settled
    rw [hpc] at hentries hwaiting hsettled
    have hcarries : ∀ p, Carries s { s.note (.sent m) with pc := .inFlight m rest } clock now p :=
      fun p => carries_of_iff hle Iff.rfl (by simp [Failed, State.recorded, Event.recorded?])
        (by simp [Delivered, State.delivered, Event.delivered?])
    refine ⟨hi.unique, ?_, ?_, ⟨rest, ?_, fun _ => rfl⟩, hentries, ?_, ?_, ?_⟩
    · simpa [State.recorded, Event.recorded?] using hi.origin
    · simpa [State.recorded, Event.recorded?] using hi.shown
    · rw [← hlater, hlater']
      simp [State.sent, Event.sent?]
    · exact (hcarries m).waiting (hwaiting m (mem_cons_self ..))
    · exact fun p hp => (hcarries p).waiting (hwaiting p (mem_cons_of_mem _ hp))
    · exact fun p hp hnot => (hcarries p).outcome (hsettled p hp hnot)
  | succeed m rest v offline hpc =>
    have hs : s.pc.entries = m :: s.pc.rest := by rw [hpc]; rfl
    have hrest : rest = s.pc.rest := by rw [hpc]; rfl
    have hmem : m ∈ snapshot := hi.entries.subset (by rw [hs]; exact mem_cons_self ..)
    have hcur := hi.current
    rw [hpc] at hcur
    refine hi.stepOn hnodup hs (by rw [hpc]; exact fun h => by cases h) hrest hi.unique ?_ ?_
      (by simp [State.sent, Event.sent?]) (fun p hp hne => ?_)
      (.inr ⟨by rw [← hrest]; rfl, ?_, ?_⟩)
    · simpa [State.recorded, Event.recorded?] using hi.origin
    · simpa [State.recorded, Event.recorded?] using hi.shown
    · have hother : ¬SameWrite m p :=
        fun h => clientId_ne_of_ne hstored hsub hp hmem hne h.2.1.symm
      refine carries_of_iff hle Iff.rfl (by simp [Failed, State.recorded, Event.recorded?]) ?_
      simp [Delivered, State.delivered, Event.delivered?, or_and_right, exists_or, hother]
    · exact ⟨m, by simp [State.delivered, Event.delivered?], SameWrite.refl m⟩
    · have := ((carries_of_iff (t := s) hle Iff.rfl Iff.rfl Iff.rfl).waiting hcur).2
      simpa [Alive, Queued, Failed, State.recorded, Event.recorded?] using this
  | stop m rest status message hpc =>
    have hs : s.pc.entries = m :: s.pc.rest := by rw [hpc]; rfl
    have hcur := hi.current
    rw [hpc] at hcur
    obtain ⟨later, hlater, -⟩ := hi.progress
    refine ⟨hi.unique, hi.origin, hi.shown, ⟨later, hlater, fun h => absurd rfl h⟩,
      nil_suffix, trivial, (fun p hp => by cases hp), fun p hp _ => ?_⟩
    by_cases hin : p ∈ s.pc.entries
    · rw [hs] at hin
      rcases mem_cons.mp hin with rfl | hin
      · exact hcur.2.outcome hcur.1
      · exact (hi.waiting p hin).2.outcome (hi.waiting p hin).1
    · exact hi.settled p hp hin
  | fail m rest status message hpc =>
    have hcur := hi.current
    rw [hpc] at hcur
    refine hi.stepOn hnodup (m := m) (by rw [hpc]; rfl) (by rw [hpc]; exact fun h => by cases h)
      (by rw [hpc]; rfl) hi.unique hi.origin hi.shown rfl
      (fun p _ _ => carries_of_iff hle Iff.rfl Iff.rfl Iff.rfl)
      (.inr ⟨by rw [hpc]; rfl, ?_⟩)
    exact (carries_of_iff (t := s) hle Iff.rfl Iff.rfl Iff.rfl).waiting hcur
  | settle m r rest now' _ hpc hset =>
    obtain rfl := hnow now' rfl
    exact hi.settle hstored hsub hnodup hle hpc hc hset
  | record m error rest now' hpc =>
    obtain rfl := hnow now' rfl
    exact hi.record hstored hsub hnodup hle hpc
  | rewrite m realId rest now' hpc =>
    obtain rfl := hnow now' rfl
    exact hi.rewrite hstored hnodup hle hpc
  | finish hpc =>
    obtain ⟨later, hlater, -⟩ := hi.progress
    refine ⟨hi.unique, hi.origin, hi.shown, ⟨later, hlater, fun h => absurd rfl h⟩,
      nil_suffix, trivial, (fun p hp => by cases hp), fun p hp _ => ?_⟩
    exact hi.settled p hp (by rw [hpc]; simp [Pc.entries])

/-- Settling the reply of a delivered entry that went stale reports it as failed. -/
theorem delivered_and_failed_of_stale (hi : PassInv stored snapshot c.1 c.2)
    (hc : ¬SettledFresh c a) (h : timedStep c a = some d) :
    ∃ p ∈ snapshot, Delivered d.1 p ∧ Failed d.1 p := by
  obtain ⟨s, clock⟩ := c
  obtain ⟨t, now⟩ := d
  obtain ⟨hstep, hle, hnow⟩ := clocked_eq_some h
  simp only at hi hstep ⊢
  cases Step.of_step hstep with
  | settle m r rest now' _ hpc hset =>
    simp only [SettledFresh, hpc] at hc
    have hmem : m ∈ snapshot := hi.entries.subset (by rw [hpc]; exact mem_cons_self ..)
    have hcur := hi.current
    rw [hpc] at hcur
    have hfails : ∀ v pc, r = .ok v → isFresh now' m = false →
        Failed { removeEntry m.clientId now' s with pc := pc } m := by
      rintro v pc rfl hstale
      refine failed_readQueue.mpr ?_
      rcases hcur.2 with ⟨hq, -⟩ | ⟨-, hf, -⟩
      · exact .inr ⟨hq, hstale⟩
      · exact .inl hf
    cases hset with
    | learns v realId hid =>
      have hstale : isFresh now' m = false := by simpa [FreshWhenSettled] using hc
      exact ⟨m, hmem, (delivered_removeEntry m.clientId now').mpr hcur.1, hfails v _ rfl hstale⟩
    | removes v hid =>
      have hstale : isFresh now' m = false := by simpa [FreshWhenSettled] using hc
      exact ⟨m, hmem, (delivered_removeEntry m.clientId now').mpr hcur.1, hfails v _ rfl hstale⟩
    | fails | keeps => exact absurd trivial hc
  | enqueue | skip | start | send | succeed | stop | fail | record | rewrite | finish =>
    exact absurd trivial hc

end Pass

/-! ## The history only grows -/

theorem log_grows_readQueue (now : ℤ) (s : State) : s.log <+: (readQueue now s).log :=
  ⟨_, (readQueue_log now s).symm⟩

theorem log_grows_step (h : step s a = some t) : s.log <+: t.log := by
  cases Step.of_step h with
  | enqueue m createdAt now => exact (log_grows_readQueue now s).trans ⟨_, rfl⟩
  | skip | stop | fail | finish => exact prefix_refl _
  | start now hpc => exact log_grows_readQueue now s
  | send | succeed | record => exact ⟨_, rfl⟩
  | settle m r rest now _ hpc hset =>
    cases hset with
    | learns | removes | fails => exact log_grows_readQueue now s
    | keeps =>
      simp only [bumpRetries_log]
      exact log_grows_readQueue now s
  | rewrite m realId rest now hpc =>
    simp only [note_log, rewriteUrls_log]
    exact (log_grows_readQueue now s).trans ⟨_, rfl⟩

theorem Delivered.of_log (hlog : s.log <+: t.log) (h : Delivered s p) : Delivered t p := by
  obtain ⟨d, hd, hw⟩ := h
  exact ⟨d, (hlog.filterMap Event.delivered?).subset hd, hw⟩

theorem Failed.of_log (hlog : s.log <+: t.log) (h : Failed s p) : Failed t p := by
  obtain ⟨r, hr, hw⟩ := h
  exact ⟨r, (hlog.filterMap Event.recorded?).subset hr, hw⟩

/-- Delivered and failed is not an outcome, now or later. -/
theorem not_outcome_of_delivered_failed {as : List Action}
    (hrun : run timedStep c as = some d) (hd : Delivered c.1 p) (hf : Failed c.1 p) :
    ¬Outcome d.1 p := by
  have hlog : c.1.log <+: d.1.log :=
    inv_run (I := fun x => c.1.log <+: x.1.log)
      (fun _ _ _ hx h => hx.trans (log_grows_step (clocked_eq_some h).1))
      (prefix_refl _) hrun
  have hd' := hd.of_log hlog
  have hf' := hf.of_log hlog
  rintro (⟨-, -, h⟩ | ⟨-, -, h⟩ | ⟨h, -, -⟩)
  · exact h hf'
  · exact h hf'
  · exact h hd'

/-! ## A whole pass -/

/-- At the end of a pass that kept the invariant every entry has its outcome. -/
theorem PassInv.exclusiveOutcome {stored snapshot : List QueuedMutation}
    (hserial : (snapshot.map QueuedMutation.serial).Nodup)
    (hsorted : snapshot.Pairwise (fun a b => a.createdAt ≤ b.createdAt))
    (hi : PassInv stored snapshot s clock) (hidle : s.pc = .idle) :
    ExclusiveOutcome snapshot s := by
  obtain ⟨later, hlater, -⟩ := hi.progress
  have hattempts : s.sent <+: snapshot := ⟨later, hlater⟩
  refine ⟨hattempts, hserial.sublist (hattempts.sublist.map _), hsorted.sublist hattempts.sublist,
    fun p hp => hi.settled p hp (by rw [hidle]; exact not_mem_nil), fun p hp hf => ?_⟩
  obtain ⟨r, hr, hw⟩ := hf
  obtain ⟨f, hf, hr'⟩ := hi.shown r hr
  refine ⟨f, hf, hr'.1.trans hw.2.1, hr'.2.1.trans ?_, hr'.2.2.trans hw.2.2.2.1⟩
  rw [hw.2.2.1]

/-- A pass has exclusive outcomes exactly when every step meets `SettledFresh`. -/
theorem pass_exclusive_iff {stored snapshot : List QueuedMutation}
    (hserial : (snapshot.map QueuedMutation.serial).Nodup)
    (hsorted : snapshot.Pairwise (fun a b => a.createdAt ≤ b.createdAt))
    (hsub : ∀ p ∈ snapshot, p ∈ stored) (hstored : UniqueKeys clientKey stored)
    {as : List Action} (hi : PassInv stored snapshot c.1 c.2)
    (hdrain : ∀ a ∈ as, a.isDrain = true) (hrun : run timedStep c as = some d)
    (hidle : d.1.pc = .idle) :
    ExclusiveOutcome snapshot d.1 ↔ Meets timedStep SettledFresh c as := by
  have hnodup : snapshot.Nodup := hserial.of_map _
  induction as generalizing c with
  | nil =>
    cases hrun
    exact ⟨fun _ => trivial, fun _ => hi.exclusiveOutcome hserial hsorted hidle⟩
  | cons a as ih =>
    obtain ⟨e, he, hrest⟩ := run_cons_eq_some.mp hrun
    by_cases hc : SettledFresh c a
    · have hie := passInv_step hstored hsub hnodup hi (hdrain a (mem_cons_self ..)) hc he
      refine (ih hie (fun b hb => hdrain b (mem_cons_of_mem _ hb)) hrest).trans ?_
      rw [meets_cons]
      refine ⟨fun h => ⟨hc, fun t ht => ?_⟩, fun h => h.2 e he⟩
      cases he.symm.trans ht
      exact h
    · obtain ⟨p, hp, hd, hf⟩ := delivered_and_failed_of_stale hi hc he
      refine ⟨fun h => absurd (h.outcome p hp) ?_, fun h => absurd (meets_cons.mp h).1 hc⟩
      exact not_outcome_of_delivered_failed hrest hd hf

/-- The snapshot of a drain that starts at `now` on a stored queue. -/
def snapshotAt (q : StoredQueue) (now : ℤ) : List QueuedMutation :=
  sortQueue ((number 0 q.entries).filter (isFresh now))

theorem snapshotAt_perm (q : StoredQueue) (now : ℤ) :
    (snapshotAt q now).Perm ((number 0 q.entries).filter (isFresh now)) :=
  perm_insertionSort _ _

theorem nodup_serial_number (n : ℕ) (l : List (Mutation × ℤ)) :
    ((number n l).map QueuedMutation.serial).Nodup := by
  induction l generalizing n with
  | nil => exact nodup_nil
  | cons p l ih =>
    refine nodup_cons.mpr ⟨fun h => ?_, ih (n + 1)⟩
    obtain ⟨e, he, heq⟩ := mem_map.mp h
    have hle := le_serial_of_mem_number he
    change e.serial = n at heq
    omega

/-- The invariant holds when a drain has taken its snapshot. -/
theorem passInv_start (q : StoredQueue) (failedSync : List FailedSyncItem) (reconciler : Bool)
    (now : ℤ) :
    let s := readQueue now (initial q failedSync reconciler)
    PassInv (number 0 q.entries) (snapshotAt q now)
      { s with pc := .looping (sortQueue s.queue) } now := by
  intro s
  have hqueue : s.queue = (number 0 q.entries).filter (isFresh now) := readQueue_queue now _
  have hunique := uniqueKeys_number 0 q
  have hstale : s.recorded = (number 0 q.entries).filter (fun m => !isFresh now m) := by
    rw [readQueue_recorded]
    simp [State.recorded, initial, filterMap_map, comp_def, Event.recorded?]
  have hsent : s.sent = [] := by
    rw [readQueue_sent]
    simp [State.sent, initial, filterMap_map, comp_def, Event.sent?]
  have hdelivered : s.delivered = [] := by
    rw [readQueue_delivered]
    simp [State.delivered, initial, filterMap_map, comp_def, Event.delivered?]
  have hpc : sortQueue s.queue = snapshotAt q now := by rw [hqueue, snapshotAt]
  have hmem : ∀ {p}, p ∈ snapshotAt q now ↔ p ∈ number 0 q.entries ∧ isFresh now p = true := by
    intro p
    rw [snapshotAt, mem_sortQueue, mem_filter]
  refine ⟨?_, ?_, ?_, ⟨snapshotAt q now, ?_, fun _ => hpc.symm⟩, ?_, trivial, ?_, ?_⟩
  · change UniqueKeys clientKey s.queue
    rw [hqueue]
    exact hunique.filter _
  · change ∀ r, r ∈ s.queue ∨ r ∈ s.recorded → _
    rw [hqueue, hstale]
    rintro r (hr | hr) <;> exact ⟨r, (mem_filter.mp hr).1, SameWrite.refl r⟩
  · change ∀ r ∈ s.recorded, ∃ f ∈ s.failedSync, Records f r
    rw [hstale, readQueue_failedSync]
    intro r hr
    refine records_foldl_putLast (fun m hm hc => ?_) (.inr ⟨r, hr, SameWrite.refl r⟩)
    rw [hunique.eq_of_mem (mem_filter.mp hm).1 (mem_filter.mp hr).1 hc]
    exact SameWrite.refl r
  · change s.sent ++ snapshotAt q now = snapshotAt q now
    rw [hsent, nil_append]
  · change sortQueue s.queue <:+ snapshotAt q now
    exact hpc ▸ suffix_refl _
  · change ∀ p ∈ sortQueue s.queue, _
    rw [hpc]
    intro p hp
    obtain ⟨hp, hf⟩ := hmem.mp hp
    refine ⟨?_, .inl ⟨⟨p, ?_, SameWrite.refl p⟩, ?_⟩⟩
    · rintro ⟨d, hd, -⟩
      change d ∈ s.delivered at hd
      rw [hdelivered] at hd
      cases hd
    · change p ∈ s.queue
      rw [hqueue]
      exact mem_filter.mpr ⟨hp, hf⟩
    · rintro ⟨r, hr, hw⟩
      change r ∈ s.recorded at hr
      rw [hstale, mem_filter, hw.isFresh_eq, hf] at hr
      exact absurd hr.2 (by decide)
  · intro p hp hnot
    change p ∉ sortQueue s.queue at hnot
    rw [hpc] at hnot
    exact absurd hp hnot

/-- **The outcomes of a pass are exclusive exactly when every delivered entry is
still fresh as its reply is settled**: for every stored queue, every sequence of
replies and every advance of the clock, once the drain is over. -/
theorem drainPass_exclusive_iff (q : StoredQueue) (failedSync : List FailedSyncItem)
    (reconciler : Bool) (clock now : ℤ) (as : List Action) (s : State) (later : ℤ)
    (hdrain : ∀ a ∈ as, a.isDrain = true)
    (hrun : Machine.run timedStep (initial q failedSync reconciler, clock)
      (.start false now :: as) = some (s, later))
    (hidle : s.pc = .idle) :
    ExclusiveOutcome (snapshotAt q now) s ↔
      Machine.Meets timedStep SettledFresh (initial q failedSync reconciler, clock)
        (.start false now :: as) := by
  obtain ⟨⟨t, now'⟩, hstart, hrest⟩ := Machine.run_cons_eq_some.mp hrun
  obtain ⟨hstep, -, hnow⟩ := Machine.clocked_eq_some hstart
  obtain rfl := hnow now rfl
  simp only [step, initial] at hstep
  cases hstep
  have hperm := snapshotAt_perm q now'
  have hsub : ∀ p ∈ snapshotAt q now', p ∈ number 0 q.entries :=
    fun p hp => (List.mem_filter.mp (hperm.subset hp)).1
  have hserial : ((snapshotAt q now').map QueuedMutation.serial).Nodup :=
    (hperm.map _).nodup_iff.mpr
      ((nodup_serial_number 0 q.entries).sublist (List.filter_sublist.map _))
  have hsorted : (snapshotAt q now').Pairwise (fun a b => a.createdAt ≤ b.createdAt) :=
    List.pairwise_insertionSort _ _
  rw [pass_exclusive_iff hserial hsorted hsub (uniqueKeys_number 0 q)
    (passInv_start q failedSync reconciler now') hdrain hrest hidle, Machine.meets_cons]
  refine ⟨fun h => ⟨trivial, fun u hu => ?_⟩, fun h => h.2 _ hstart⟩
  cases hstart.symm.trans hu
  exact h

/-! ## Two passes -/

/-- The answer to an invitation. -/
def rsvpWrite : Mutation where
  clientId := "PUT:/crews/c1/rsvp"
  url := "/crews/c1/rsvp"
  method := .put
  body := some (.obj [("status", .str "going")])

/-- A vote. -/
def voteWrite : Mutation where
  clientId := "POST:/crews/c1/polls/x/vote"
  url := "/crews/c1/polls/x/vote"
  method := .post
  body := some (.obj [("option", .num 1)])

/-- The vote is older than the answer, though stored after it. -/
def rsvpAndVote : StoredQueue := ⟨[(rsvpWrite, 5), (voteWrite, 0)], by decide⟩

/-- The vote is delivered, the answer fails and stays queued. -/
def freshPass : List Action :=
  [.send, .reply (.ok .null) false, .settle 20, .send, .reply (.error (some 503) "") false,
    .settle 30, .finish]

/-- The outcomes of a pass that settles its replies in time. -/
theorem drainPass_exclusive_freshPass :
    ∃ s later, Machine.run timedStep (initial rsvpAndVote [] true, 0)
        (.start false 10 :: freshPass) = some (s, later) ∧
      ExclusiveOutcome (snapshotAt rsvpAndVote 10) s :=
  ⟨_, _, rfl, (drainPass_exclusive_iff rsvpAndVote [] true 0 10 freshPass _ _ (by decide) rfl
    rfl).mpr (by decide)⟩

/-- The reply is settled 24 hours after the vote was queued. -/
def stalePass : List Action := [.send, .reply (.ok .null) false, .settle 86400000, .finish]

/-- One vote is queued. -/
def oneVote : StoredQueue := ⟨[(voteWrite, 0)], by decide⟩

/-- Its entry. -/
def queuedVote : QueuedMutation := { voteWrite with createdAt := 0, serial := 0 }

/-- **Delivered and failed**: an entry that reaches the staleness limit while its
replay is in flight is delivered to the server and reported as failed. -/
theorem delivered_and_failed :
    ∃ s later, Machine.run timedStep (initial oneVote [] true, 0)
        (.start false 86399999 :: stalePass) = some (s, later) ∧
      s.pc = .idle ∧ ¬ExclusiveOutcome (snapshotAt oneVote 86399999) s := by
  refine ⟨_, _, rfl, rfl, fun h => ?_⟩
  rcases h.outcome queuedVote (List.mem_cons_self ..) with ⟨-, -, hnot⟩ | ⟨-, -, hnot⟩ | ⟨hnot, -, -⟩
  · exact hnot ⟨queuedVote, List.mem_cons_self .., SameWrite.refl _⟩
  · exact hnot ⟨queuedVote, List.mem_cons_self .., SameWrite.refl _⟩
  · exact hnot ⟨queuedVote, List.mem_cons_self .., SameWrite.refl _⟩

end FestivalPlanner.OfflineQueue
