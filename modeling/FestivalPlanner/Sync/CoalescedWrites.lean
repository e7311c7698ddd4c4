import FestivalPlanner.Lib.Machine
import FestivalPlanner.Sync.QueueCalls

/-!
# Writes that arrive during a pass

Calls of `queueMutation` while `processQueue` of the web queue is running.

* `Action`, `step` — any number of calls and the running pass, in any order;
* `Timely` — no answer, report or late fallback of an older call meets the write of a newer one;
* `newer_kept` — in timely runs, each accepted mutation stays pending until it is delivered,
  reported, or gives way to a later call.

An entry of IndexedDB is settled by its key, an entry of `localStorage` by its client id.
-/

namespace FestivalPlanner.WebQueue.Interleaved

open List Option

/-! ## The pass and the calls -/

structure State where
  queue : Queue
  /-- The entries that the running pass has not settled; the first one is being replayed. -/
  pass : Option (List Entry)
  /-- The calls that have not returned. -/
  calls : List Call
  /-- All calls so far, the calls that returned, and the mutations that were delivered. -/
  made : List (ℕ × Mutation)
  accepted : List (ℕ × Mutation)
  delivered : List (ℕ × Mutation)

inductive Action where
  | queueMutation (now : ℤ) (fresh : String) (m : Mutation) (io : List Bool)
  /-- The next stage of a call. -/
  | proceed (i : ℕ) (now : ℤ) (io : List Bool)
  | processQueue (now : ℤ) (io : List Bool)
  /-- The entry in flight is answered. -/
  | settle (now : ℤ) (reply : Reply) (io : List Bool)
  /-- The pass is over. -/
  | finish (io : List Bool)

@[grind =] def step (s : State) : Action → Option State
  | .queueMutation now fresh m io =>
      let e := entryOf now s.queue.serial
        (if m.clientId = "" then { m with clientId := fresh } else m)
      let r := Queue.begin { s.queue.withIo io with serial := s.queue.serial + 1 } e
      some { s with queue := r.2, calls := s.calls ++ [r.1], made := s.made ++ [e.call] }
  | .proceed i now io =>
      match s.calls[i]? with
      | none => none
      | some c =>
          let r := (s.queue.withIo io).proceed now c
          match r.1 with
          | some c' => some { s with queue := r.2, calls := s.calls.set i c' }
          | none =>
              some { s with
                queue := r.2
                calls := s.calls.eraseIdx i
                accepted := s.accepted ++ [c.entry.call] }
  | .processQueue now io =>
      match s.pass with
      | some _ => some s
      | none =>
          let r := (s.queue.withIo io).getAll now
          some { s with queue := r.2, pass := r.1.map pendingInOrder }
  | .settle now reply io =>
      match s.pass with
      | some (m :: rest) =>
          if m.isSendable then
            some { s with
              queue := (s.queue.withIo io).settle now m reply
              pass := some rest
              delivered :=
                match reply with
                | .ok => s.delivered ++ [m.call]
                | .error .. => s.delivered }
          else some { s with pass := some rest }
      | _ => none
  | .finish io =>
      match s.pass with
      | some [] => some { s with queue := (s.queue.withIo io).getPendingCount.2, pass := none }
      | _ => none

def start : State :=
  { queue := initial, pass := none, calls := [], made := [], accepted := [], delivered := [] }

/-- At most one entry of each store is pending for a client id. -/
def Coalesced (q : Queue) : Prop :=
  ((q.idb.filter Entry.isPending).map (fun e => e.clientId)).Nodup ∧
  ((q.localQueue.filter Entry.isPending).map (fun e => e.clientId)).Nodup

/-- The mutation of a call is pending, delivered or reported, or it gave way to a later call. -/
def Accounted (s : State) (c : ℕ × Mutation) : Prop := s.queue.Holds c ∨ c ∈ s.delivered

/-- The answer for an entry removes and changes no entry of another call and no report of a
later one. -/
def Keeps (s : State) : Action → State → Prop
  | .settle .., t => ∀ m rest, s.pass = some (m :: rest) →
      (∀ x ∈ s.queue.idb, x.serial ≠ m.serial → x ∈ t.queue.idb) ∧
      (∀ x ∈ s.queue.localQueue, x.serial ≠ m.serial → x ∈ t.queue.localQueue) ∧
      (∀ f ∈ s.queue.failedSync, m.serial < f.serial → f ∈ t.queue.failedSync)
  | _, _ => True

/-- An entry of `localStorage` is answered before a later call of its client id is in
`localStorage`; nothing is reported after a later call of its client id was, and no fallback
comes after that of a later call. -/
@[grind =] def Timely (s : State) : Action → Prop
  | .queueMutation .. => True
  | .proceed i _ io =>
      match s.calls[i]? with
      | some ⟨e, .fallback⟩ =>
          if (s.queue.withIo io).device.takes then
            ∀ x ∈ s.queue.localQueue, x.clientId = e.clientId → x.serial ≤ e.serial
          else s.queue.NoNewerReport e
      | some ⟨e, .countLocal⟩ => (s.queue.withIo io).read.1.isSome ∨ s.queue.NoNewerReport e
      | _ => True
  | .processQueue now io =>
      match s.pass, (s.queue.withIo io).read.1 with
      | none, some all => ∀ m ∈ all, m.isPending → !m.isFresh now → s.queue.NoNewerReport m
      | _, _ => True
  | .settle _ reply _ =>
      match s.pass with
      | some (m :: _) => m.isSendable →
          (m.id = none → ∀ x ∈ s.queue.localQueue, x.clientId = m.clientId → x.serial = m.serial) ∧
          match reply with
          | .ok => True
          | .error status _ => isPermanent m status → s.queue.NoNewerReport m
      | _ => True
  | .finish _ => True

/-! ## Invariants of every run -/

/-- The key of a snapshot entry is that of no entry of another call. -/
def Ready (s : State) (m : Entry) : Prop :=
  m.call ∈ s.made ∧
  ∀ k, m.id = some k → k < s.queue.nextId ∧ ∀ x ∈ s.queue.idb, x.id = some k → x.serial = m.serial

structure Inv (s : State) : Prop where
  stored : s.queue.Stored
  nodup : (s.made.map Prod.fst).Nodup
  lt : ∀ c ∈ s.made, c.1 < s.queue.serial
  known : ∀ e ∈ s.queue.idb ++ s.queue.localQueue, e.call ∈ s.made
  calls : ∀ c ∈ s.calls, c.entry.call ∈ s.made
  entries : ∀ c ∈ s.calls, c.entry.id = none ∧ c.entry.isPending
  accepted : ∀ c ∈ s.accepted, c ∈ s.made
  ready : ∀ m ∈ s.pass.getD [], Ready s m

variable {s t : State} {c : ℕ × Mutation} {q : Queue} {calls : List Call} {e m : Entry} {now : ℤ}
  {a : Action} {rest : List Entry} {io : List Bool}

/-- A serial is that of one mutation. -/
theorem Inv.call_eq (h : Inv s) {d : ℕ × Mutation} (hc : c ∈ s.made) (hd : d ∈ s.made)
    (heq : c.1 = d.1) : c = d :=
  inj_on_of_nodup_map h.nodup hc hd heq

/-- A step that adds no entry. -/
theorem Inv.of_shrinks (h : Inv s) (hq : q.Stored) (hs : Shrinks s.queue q)
    {pass : Option (List Entry)} {accepted delivered : List (ℕ × Mutation)}
    (hpass : ∀ m ∈ pass.getD [], Ready s m)
    (hcalls : ∀ c ∈ calls, ∃ d ∈ s.calls, d.entry = c.entry)
    (haccepted : ∀ c ∈ accepted, c ∈ s.made) :
    Inv ⟨q, pass, calls, s.made, accepted, delivered⟩ := by
  refine ⟨hq, h.nodup, fun c hc => hs.serial ▸ h.lt c hc, ?_, ?_, ?_, haccepted, ?_⟩
  · intro e he
    rcases mem_append.mp he with he | he
    · obtain ⟨y, hy, hcall, -⟩ := hs.idb e he
      exact hcall ▸ h.known y (mem_append_left _ hy)
    · obtain ⟨y, hy, hcall⟩ := hs.localQueue e he
      exact hcall ▸ h.known y (mem_append_right _ hy)
  · intro c hc
    obtain ⟨d, hd, heq⟩ := hcalls c hc
    exact heq ▸ h.calls d hd
  · intro c hc
    obtain ⟨d, hd, heq⟩ := hcalls c hc
    exact heq ▸ h.entries d hd
  · intro m hm
    obtain ⟨hmade, hkey⟩ := hpass m hm
    refine ⟨hmade, fun k hk => ⟨hs.nextId ▸ (hkey k hk).1, fun x hx hxk => ?_⟩⟩
    obtain ⟨y, hy, hcall, hid⟩ := hs.idb x hx
    have hserial : y.serial = x.serial := congrArg Prod.fst hcall
    exact hserial ▸ (hkey k hk).2 y hy (hid.trans hxk)

/-- The entry of a call goes to `localStorage`. -/
theorem Inv.fallback (h : Inv s) {d : Device} (hmade : e.call ∈ s.made)
    (he : e.id = none ∧ e.isPending) (hcalls : ∀ c ∈ calls, c ∈ s.calls ∨ c.entry = e) :
    Inv { s with queue := Queue.upsertLocal { s.queue with device := d } e, calls := calls } := by
  have hq : Queue.Stored { s.queue with device := d } := h.stored.reports d _ _
  have hstatus : e.status = .pending := by simpa [Entry.isPending] using he.2
  refine ⟨hq.upsertLocal e hstatus he.1, h.nodup, h.lt, ?_, ?_, ?_, h.accepted, h.ready⟩
  · intro x hx
    rcases mem_append.mp hx with hx | hx
    · exact h.known x (mem_append_left _ hx)
    · rw [hq.localQueue_upsertLocal e] at hx
      rcases mem_filter_append hx with hx | rfl
      · exact h.known x (mem_append_right _ hx)
      · exact hmade
  · intro c hc
    rcases hcalls c hc with hc | hc
    · exact h.calls c hc
    · exact hc ▸ hmade
  · intro c hc
    rcases hcalls c hc with hc | hc
    · exact h.entries c hc
    · exact hc ▸ he

/-- A new call. -/
theorem Inv.begin (h : Inv s) (io : List Bool) (hserial : e.serial = s.queue.serial)
    (he : e.id = none ∧ e.isPending) :
    let r := Queue.begin { s.queue.withIo io with serial := s.queue.serial + 1 } e
    Inv { s with queue := r.2, calls := s.calls ++ [r.1], made := s.made ++ [e.call] } := by
  intro r
  have hstatus : e.status = .pending := by simpa [Entry.isPending] using he.2
  have hstore (d : Device) :
      Queue.Stored { s.queue with device := d, serial := s.queue.serial + 1 } :=
    ⟨h.stored.ids, h.stored.idLt, h.stored.localId, h.stored.idbClients, h.stored.localClients,
      h.stored.idbPending, h.stored.localPending⟩
  -- What the call does to the stores, whether or not its transaction succeeds.
  have hentry : r.1.entry = e ∧ r.2.Stored ∧ r.2.serial = s.queue.serial + 1 ∧
      r.2.localQueue = s.queue.localQueue ∧ s.queue.nextId ≤ r.2.nextId ∧
      ∀ x ∈ r.2.idb, x ∈ s.queue.idb ∨ x = { e with id := some s.queue.nextId } := by
    obtain ⟨d, heq | heq⟩ :=
      begin_cases { s.queue.withIo io with serial := s.queue.serial + 1 } e <;> simp only [r, heq]
    · exact ⟨trivial, (hstore d).upsertIdb e hstatus, rfl, rfl, Nat.le_succ _,
        fun x hx => mem_filter_append hx⟩
    · exact ⟨trivial, hstore d, trivial, rfl, le_refl _, fun x hx => .inl hx⟩
  obtain ⟨hentry, hstored, hserial', hlocal, hnext, hidb⟩ := hentry
  refine ⟨hstored, ?_, ?_, ?_, ?_, ?_, fun c hc => mem_append_left _ (h.accepted c hc), ?_⟩
  · rw [map_append, nodup_append]
    refine ⟨h.nodup, by simp, ?_⟩
    intro a ha b hb
    obtain ⟨c, hc, rfl⟩ := List.mem_map.mp ha
    obtain rfl : b = s.queue.serial := by simpa [Entry.call, hserial] using hb
    exact (h.lt c hc).ne
  · intro c hc
    rw [hserial']
    rcases mem_append.mp hc with hc | hc
    · exact (h.lt c hc).trans (Nat.lt_succ_self _)
    · obtain rfl := mem_singleton.mp hc
      exact hserial ▸ Nat.lt_succ_self _
  · intro x hx
    rcases mem_append.mp hx with hx | hx
    · rcases hidb x hx with hx | rfl
      · exact mem_append_left _ (h.known x (mem_append_left _ hx))
      · exact mem_append_right _ (mem_singleton.mpr rfl)
    · exact mem_append_left _ (h.known x (mem_append_right _ (hlocal ▸ hx)))
  · intro c hc
    rcases mem_append.mp hc with hc | hc
    · exact mem_append_left _ (h.calls c hc)
    · obtain rfl := mem_singleton.mp hc
      simp [hentry]
  · intro c hc
    rcases mem_append.mp hc with hc | hc
    · exact h.entries c hc
    · obtain rfl := mem_singleton.mp hc
      exact hentry ▸ he
  · intro m hm
    obtain ⟨hmade, hkey⟩ := h.ready m hm
    refine ⟨mem_append_left _ hmade, fun k hk => ⟨(hkey k hk).1.trans_le hnext, ?_⟩⟩
    intro x hx hxk
    rcases hidb x hx with hx | rfl
    · exact (hkey k hk).2 x hx hxk
    · have hkey' : s.queue.nextId = k := some.inj hxk
      exact absurd (hkey k hk).1 (hkey' ▸ lt_irrefl _)

/-- The entries of a pass are those that were read. -/
theorem mem_getAll (hm : m ∈ ((q.getAll now).1.map pendingInOrder).getD []) :
    m ∈ q.idb ++ q.localQueue := by
  unfold Queue.getAll at hm
  cases hread : q.read.1 with
  | none => simp [hread] at hm
  | some all =>
    simp only [hread, map_some, getD_some, pendingInOrder,
      mem_insertionSort, mem_filter] at hm
    rcases read_eq hread with rfl | rfl
    · exact mem_append_left _ hm.1.1
    · exact mem_append_right _ hm.1.1

/-- An entry of a store can be settled. -/
theorem Inv.ready_of_mem (h : Inv s) (hm : m ∈ s.queue.idb ++ s.queue.localQueue) : Ready s m := by
  refine ⟨h.known m hm, fun k hk => ?_⟩
  rcases mem_append.mp hm with hm | hm
  · obtain ⟨j, hj, hid⟩ := h.stored.idLt m hm
    obtain rfl : j = k := some.inj (hid.symm.trans hk)
    exact ⟨hj, fun x hx hxk =>
      congrArg Entry.serial (inj_on_of_nodup_map h.stored.ids hx hm (hxk.trans hid.symm))⟩
  · exact absurd (h.stored.localId m hm) (by simp [hk])

theorem inv_step (h : Inv s) (hstep : step s a = some t) : Inv t := by
  have hq (io : List Bool) : (s.queue.withIo io).Stored := h.stored.reports _ _ _
  cases a with
  | queueMutation now fresh m io =>
    obtain rfl := some.inj hstep
    exact h.begin io rfl ⟨rfl, rfl⟩
  | proceed i now io =>
    simp only [step] at hstep
    cases hc : s.calls[i]? with
    | none => simp [hc] at hstep
    | some c =>
      have hmem : c ∈ s.calls := mem_of_getElem? hc
      have hset (c' : Call) (hc' : c'.entry = c.entry) :
          ∀ x ∈ s.calls.set i c', ∃ y ∈ s.calls, y.entry = x.entry := by
        intro x hx
        rcases mem_or_eq_of_mem_set hx with hx | rfl
        · exact ⟨x, hx, rfl⟩
        · exact ⟨c, hmem, hc'.symm⟩
      have herase : ∀ x ∈ s.calls.eraseIdx i, ∃ y ∈ s.calls, y.entry = x.entry :=
        fun x hx => ⟨x, mem_of_mem_eraseIdx hx, rfl⟩
      have haccepted : ∀ x ∈ s.accepted ++ [c.entry.call], x ∈ s.made := by
        intro x hx
        rcases mem_append.mp hx with hx | hx
        · exact h.accepted x hx
        · obtain rfl := mem_singleton.mp hx
          exact h.calls c hmem
      simp only [hc] at hstep
      obtain ⟨d, ⟨-, heq⟩ | ⟨-, heq⟩ | ⟨-, -, heq⟩ | ⟨-, heq⟩⟩ :=
        proceed_cases now (s.queue.withIo io) c <;> simp only [heq] at hstep <;>
        obtain rfl := some.inj hstep
      · exact h.of_shrinks ((hq io).reports d _ _) (Shrinks.reports s.queue d _ _) h.ready herase
          haccepted
      · exact h.of_shrinks ((hq io).reports d _ _) (Shrinks.reports s.queue d _ _) h.ready
          (hset _ rfl) h.accepted
      · refine h.fallback (h.calls c hmem) (h.entries c hmem) (fun x hx => ?_)
        exact (mem_or_eq_of_mem_set hx).imp_right (fun hx => congrArg Call.entry hx)
      · exact h.of_shrinks ((hq io).reports d _ _) (Shrinks.reports s.queue d _ _) h.ready herase
          haccepted
  | processQueue now io =>
    simp only [step] at hstep
    split at hstep
    · obtain rfl := some.inj hstep
      exact h
    · obtain rfl := some.inj hstep
      obtain ⟨d, f, r, heq⟩ := getAll_eq now (s.queue.withIo io)
      refine h.of_shrinks (heq ▸ (hq io).reports d f r) (heq ▸ Shrinks.reports s.queue d f r)
        (fun m hm => ?_) (fun c hc => ⟨c, hc, rfl⟩) h.accepted
      exact h.ready_of_mem (@mem_getAll (s.queue.withIo io) m now hm)
  | settle now reply io =>
    simp only [step] at hstep
    split at hstep
    · rename_i m rest hpass
      have hrest : ∀ x ∈ (some rest).getD [], Ready s x :=
        fun x hx => h.ready x (by simpa [hpass] using Or.inr hx)
      split at hstep
      · obtain rfl := some.inj hstep
        have hs := shrinks_settle now (s.queue.withIo io) m reply
        exact h.of_shrinks ((hq io).settle now m reply)
          ⟨hs.nextId, hs.serial, hs.idb, hs.localQueue⟩ hrest (fun c hc => ⟨c, hc, rfl⟩)
          h.accepted
      · obtain rfl := some.inj hstep
        exact h.of_shrinks h.stored (Shrinks.reports s.queue _ _ _) hrest
          (fun c hc => ⟨c, hc, rfl⟩) h.accepted
    · exact absurd hstep (by simp)
  | finish io =>
    simp only [step] at hstep
    split at hstep
    · obtain rfl := some.inj hstep
      exact h.of_shrinks ((hq io).reports _ _ _) (Shrinks.reports s.queue _ _ _)
        (fun m hm => absurd hm (by simp)) (fun c hc => ⟨c, hc, rfl⟩) h.accepted
    · exact absurd hstep (by simp)

theorem inv_start : Inv start := by
  refine ⟨⟨?_, ?_, ?_, ?_, ?_, ?_, ?_⟩, ?_, ?_, ?_, ?_, ?_, ?_, ?_⟩ <;> simp [start, initial]

/-- Whatever happens, at most one entry of each store is pending for a client id. -/
theorem coalesced_run {as : List Action} (hrun : Machine.run step start as = some t) :
    Coalesced t.queue := by
  have h : Inv t := Machine.inv_run (fun _ _ _ => inv_step) inv_start hrun
  exact ⟨h.stored.idbClients.sublist (filter_sublist.map _),
    h.stored.localClients.sublist (filter_sublist.map _)⟩

/-! ## Timely runs -/

/-- The calls whose entry was stored, or that returned. -/
def State.Tracks (s : State) (c : ℕ × Mutation) : Prop :=
  c ∈ s.accepted ∨ ∃ d ∈ s.calls, d.stage ≠ .fallback ∧ d.entry.call = c

def Kept (s : State) : Prop := ∀ c, s.Tracks c → Accounted s c

theorem Inv.made_of_tracks (h : Inv s) (hc : s.Tracks c) : c ∈ s.made := by
  rcases hc with hc | ⟨d, hd, -, rfl⟩
  · exact h.accepted c hc
  · exact h.calls d hd

/-- The entry in flight is identified by its key, or by its client id in a timely run. -/
theorem Inv.names (h : Inv s) (hpass : s.pass = some (m :: rest)) (hlocal : m.id = none →
      ∀ x ∈ s.queue.localQueue, x.clientId = m.clientId → x.serial = m.serial) :
    s.queue.Names m := by
  refine ⟨fun x hx hid => ?_, hlocal⟩
  obtain ⟨k, hk, hxk⟩ := h.stored.idLt x hx
  exact ((h.ready m (by simp [hpass])).2 k (hid.symm.trans hxk)).2 x hx hxk

/-- The answer for an entry of a timely run. -/
theorem accounted_settle (h : Inv s) {reply : Reply} (hpass : s.pass = some (m :: rest))
    (hsend : m.isSendable) (hT : Timely s (.settle now reply io)) (hmade : c ∈ s.made)
    (hc : s.queue.Holds c) :
    ((s.queue.withIo io).settle now m reply).Holds c ∨ (reply = .ok ∧ c = m.call) := by
  simp only [Timely, hpass] at hT
  obtain ⟨hlocal, hreport⟩ := hT hsend
  have hnames : (s.queue.withIo io).Names m := h.names hpass hlocal
  have hholds : (s.queue.withIo io).Holds c := hc
  by_cases heq : c.1 = m.serial
  · obtain rfl : c = m.call := h.call_eq hmade (h.ready m (by simp [hpass])).1 heq
    rcases settle_cases now (s.queue.withIo io) m reply with
      ⟨hok, -⟩ | ⟨status, message, -, -, hsettle⟩ | ⟨_, _, -, hsettle⟩
    · exact .inr ⟨hok, rfl⟩
    · refine .inl (.inr (.inl ⟨report now (reason status message) m, ?_, rfl, rfl⟩))
      rw [hsettle, (replaced_remove _ m).1]
      simp [Queue.addFailedSync]
    · exact .inl (hsettle ▸ hholds.bump m)
  · rcases settle_cases now (s.queue.withIo io) m reply with
      ⟨-, hsettle⟩ | ⟨status, message, hreply, hperm, hsettle⟩ | ⟨_, _, -, hsettle⟩
    · exact .inl (hsettle ▸ hholds.remove hnames heq)
    · subst hreply
      refine .inl (hsettle ▸ Queue.Holds.remove ?_ hnames heq)
      exact hholds.addFailedSync _ (hreport hperm)
    · exact .inl (hsettle ▸ hholds.bump m)

/-- The reports of a pass about stale entries. -/
theorem accounted_getAll (h : Inv s) (hpass : s.pass = none)
    (hT : Timely s (.processQueue now io)) (hc : s.queue.Holds c) :
    ((s.queue.withIo io).getAll now).2.Holds c := by
  simp only [Timely, hpass] at hT
  unfold Queue.getAll
  cases hread : (s.queue.withIo io).read.1 with
  | none => exact hc
  | some all =>
    simp only [hread] at hT
    have hmem : (all.map (fun e => e.clientId)).Nodup ∧ ∀ m ∈ all, m.isPending := by
      rcases @read_eq (s.queue.withIo io) all hread with rfl | rfl
      · exact ⟨h.stored.idbClients, fun m hm => by
          simpa [Entry.isPending] using h.stored.idbPending m hm⟩
      · exact ⟨h.stored.localClients, fun m hm => by
          simpa [Entry.isPending] using h.stored.localPending m hm⟩
    refine Queue.Holds.foldl_surfaceStaleDrop (q := { s.queue.withIo io with
      device := (s.queue.withIo io).read.2 }) hc
      (hmem.1.sublist (filter_sublist.map _)) (fun m hm => ?_)
    obtain ⟨hm, hstale⟩ := mem_filter.mp hm
    exact hT m hm (hmem.2 m hm) hstale

/-- The next stage of a call. -/
theorem kept_proceed {i : ℕ} (h : Inv s) (hk : Kept s) (hT : Timely s (.proceed i now io))
    (hstep : step s (.proceed i now io) = some t) : Kept t := by
  simp only [step] at hstep
  cases hc : s.calls[i]? with
  | none => simp [hc] at hstep
  | some d =>
    have hmem : d ∈ s.calls := mem_of_getElem? hc
    simp only [Timely, hc] at hT
    simp only [hc] at hstep
    obtain ⟨dev, ⟨hstage, heq⟩ | ⟨hstage, heq⟩ | ⟨hstage, htakes, heq⟩ | ⟨hstage, heq⟩⟩ :=
      proceed_cases now (s.queue.withIo io) d <;> simp only [heq] at hstep <;>
      obtain rfl := some.inj hstep <;> intro c hc'
    · -- the call returns
      refine hk c ?_
      rcases hc' with hc' | ⟨x, hx, hx', rfl⟩
      · rcases mem_append.mp hc' with hc' | hc'
        · exact .inl hc'
        · exact .inr ⟨d, hmem, hstage, (mem_singleton.mp hc').symm⟩
      · exact .inr ⟨x, mem_of_mem_eraseIdx hx, hx', rfl⟩
    · -- the count failed
      refine hk c ?_
      rcases hc' with hc' | ⟨x, hx, hx', rfl⟩
      · exact .inl hc'
      · rcases mem_or_eq_of_mem_set hx with hx | rfl
        · exact .inr ⟨x, hx, hx', rfl⟩
        · exact absurd rfl hx'
    · -- the entry goes to `localStorage`
      obtain ⟨e, stage⟩ := d
      obtain rfl : stage = .fallback := hstage
      simp only [htakes, if_true] at hT
      have hstored : Queue.Stored { s.queue.withIo io with device := dev } :=
        h.stored.reports dev _ _
      have hnew : Queue.Holds (Queue.upsertLocal { s.queue.withIo io with device := dev }
          { e with createdAt := now }) e.call := by
        refine .inl ⟨{ e with createdAt := now }, ?_, (h.entries _ hmem).2, rfl⟩
        simp [hstored.localQueue_upsertLocal]
      have hold {c : ℕ × Mutation} (hc : s.Tracks c) : Queue.Holds (Queue.upsertLocal
          { s.queue.withIo io with device := dev } { e with createdAt := now }) c ∨
          c ∈ s.delivered := by
        refine (hk c hc).imp_left (fun hholds => ?_)
        refine Queue.Holds.upsertLocal (q := { s.queue.withIo io with device := dev })
          hholds hstored _ (h.entries _ hmem).2 hT (fun x hx hserial => ?_)
        exact h.call_eq (h.known x (mem_append_right _ hx)) (h.calls _ hmem) hserial
      rcases hc' with hc' | ⟨x, hx, hx', rfl⟩
      · exact hold (.inl hc')
      · rcases mem_or_eq_of_mem_set hx with hx | rfl
        · exact hold (.inr ⟨x, hx, hx', rfl⟩)
        · exact .inl hnew
    · -- the call is reported
      have hreport : s.queue.NoNewerReport d.entry := by
        obtain ⟨e, stage⟩ := d
        rcases hstage with ⟨rfl, htakes⟩ | ⟨rfl, hread⟩
        · simpa [htakes] using hT
        · exact hT.resolve_left hread
      have hold {c : ℕ × Mutation} (hc : s.Tracks c) : Queue.Holds (Queue.addFailedSync
          { s.queue.withIo io with device := dev } (unsaved now d.entry)) c ∨
          c ∈ s.delivered :=
        (hk c hc).imp_left (fun hholds => Queue.Holds.addFailedSync
          (q := { s.queue.withIo io with device := dev }) hholds _ hreport)
      rcases hc' with hc' | ⟨x, hx, hx', rfl⟩
      · rcases mem_append.mp hc' with hc' | hc'
        · exact hold (.inl hc')
        · obtain rfl := mem_singleton.mp hc'
          exact .inl (holds_addFailedSync _ _ rfl rfl)
      · exact hold (.inr ⟨x, mem_of_mem_eraseIdx hx, hx', rfl⟩)

/-- A new call. -/
theorem kept_begin (h : Inv s) (hk : Kept s) (io : List Bool)
    (hserial : e.serial = s.queue.serial) (he : e.isPending) :
    let r := Queue.begin { s.queue.withIo io with serial := s.queue.serial + 1 } e
    Kept { s with queue := r.2, calls := s.calls ++ [r.1], made := s.made ++ [e.call] } := by
  intro r c hc
  have hstored (d : Device) :
      Queue.Stored { s.queue with device := d, serial := s.queue.serial + 1 } :=
    ⟨h.stored.ids, h.stored.idLt, h.stored.localId, h.stored.idbClients, h.stored.localClients,
      h.stored.idbPending, h.stored.localPending⟩
  have hlt : ∀ x ∈ s.queue.idb, x.serial < e.serial :=
    fun x hx => hserial ▸ h.lt _ (h.known x (mem_append_left _ hx))
  have hold {c : ℕ × Mutation} (hc : s.Tracks c) : r.2.Holds c ∨ c ∈ s.delivered := by
    refine (hk c hc).imp_left (fun hholds => ?_)
    obtain ⟨d, heq | heq⟩ :=
      begin_cases { s.queue.withIo io with serial := s.queue.serial + 1 } e <;> simp only [r, heq]
    · exact Queue.Holds.upsertIdb
        (q := { s.queue with device := d, serial := s.queue.serial + 1 }) hholds (hstored d) e hlt
    · exact hholds
  rcases hc with hc | ⟨x, hx, hx', rfl⟩
  · exact hold (.inl hc)
  · rcases mem_append.mp hx with hx | hx
    · exact hold (.inr ⟨x, hx, hx', rfl⟩)
    · obtain rfl := mem_singleton.mp hx
      obtain ⟨d, heq | heq⟩ :=
        begin_cases { s.queue.withIo io with serial := s.queue.serial + 1 } e
      · refine .inl (.inl ⟨{ e with id := some s.queue.nextId }, ?_, he, ?_⟩)
        · simp only [r, heq]
          exact mem_append_left _ (mem_append_right _ (mem_singleton.mpr rfl))
        · simp only [r, heq]
          rfl
      · simp [r, heq] at hx'

theorem kept_step (h : Inv s) (hk : Kept s) (hT : Timely s a) (hstep : step s a = some t) :
    Kept t := by
  cases a with
  | queueMutation now fresh m io =>
    obtain rfl := some.inj hstep
    exact kept_begin h hk io rfl rfl
  | proceed i now io => exact kept_proceed h hk hT hstep
  | processQueue now io =>
    cases hpass : s.pass with
    | some ms =>
      simp only [step, hpass] at hstep
      obtain rfl := some.inj hstep
      exact hk
    | none =>
      simp only [step, hpass] at hstep
      obtain rfl := some.inj hstep
      exact fun c hc => (hk c hc).imp_left (accounted_getAll h hpass hT)
  | settle now reply io =>
    simp only [step] at hstep
    split at hstep
    · rename_i m rest hpass
      split at hstep
      · rename_i hsend
        obtain rfl := some.inj hstep
        intro c hc
        rcases hk c hc with hholds | hdelivered
        · rcases accounted_settle h hpass hsend hT (h.made_of_tracks hc) hholds with
            hholds | ⟨rfl, rfl⟩
          · exact .inl hholds
          · exact .inr (mem_append_right _ (mem_singleton.mpr rfl))
        · refine .inr ?_
          cases reply with
          | ok => exact mem_append_left _ hdelivered
          | error status message => exact hdelivered
      · obtain rfl := some.inj hstep
        exact hk
    · exact absurd hstep (by simp)
  | finish io =>
    simp only [step] at hstep
    split at hstep
    · obtain rfl := some.inj hstep
      exact hk
    · exact absurd hstep (by simp)

theorem keeps_step (h : Inv s) (hT : Timely s a) (hstep : step s a = some t) : Keeps s a t := by
  cases a with
  | settle now reply io =>
    intro m rest hpass
    simp only [step, hpass] at hstep
    split at hstep
    · rename_i hsend
      obtain rfl := some.inj hstep
      simp only [Timely, hpass] at hT
      obtain ⟨hlocal, hreport⟩ := hT hsend
      have hnames : (s.queue.withIo io).Names m := h.names hpass hlocal
      rcases settle_cases now (s.queue.withIo io) m reply with
        ⟨-, heq⟩ | ⟨status, message, rfl, hperm, heq⟩ | ⟨_, _, -, heq⟩ <;> rw [heq]
      · refine ⟨fun x hx hne => (mem_remove hnames hne).1 hx,
          fun x hx hne => (mem_remove hnames hne).2 hx, fun f hf _ => ?_⟩
        rw [(replaced_remove _ m).1]
        exact hf
      · refine ⟨fun x hx hne => (mem_remove (q := (s.queue.withIo io).addFailedSync _)
          hnames hne).1 hx, fun x hx hne => (mem_remove
          (q := (s.queue.withIo io).addFailedSync _) hnames hne).2 hx, fun f hf hlt => ?_⟩
        rw [(replaced_remove _ m).1]
        have hc : f.clientId ≠ m.clientId := fun hc => absurd (hreport hperm f hf hc) hlt.not_ge
        exact mem_append_left _ (mem_filter.mpr ⟨hf, decide_eq_true hc⟩)
      · refine ⟨fun x hx hne => (mem_bump hnames hne).1 hx,
          fun x hx hne => (mem_bump hnames hne).2 hx, fun f hf _ => ?_⟩
        rw [(replaced_bump _ m).1]
        exact hf
    · obtain rfl := some.inj hstep
      exact ⟨fun x hx _ => hx, fun x hx _ => hx, fun f hf _ => hf⟩
  | _ => trivial

/-- In a run of timely steps, each store has at most one pending entry for a client id, every
mutation whose call returned is pending, delivered, reported or gave way to a later call, and
the answer for an entry leaves those of other calls alone. -/
theorem newer_kept {as : List Action} {t : State} (hrun : Machine.run step start as = some t)
    (hT : Machine.Meets step Timely start as) :
    Coalesced t.queue ∧ (∀ c ∈ t.accepted, Accounted t c) ∧ Machine.Each step Keeps start as := by
  have hstart : Inv start ∧ Kept start := by
    refine ⟨inv_start, ?_⟩
    rintro c (hc | ⟨d, hd, -⟩)
    · exact absurd hc List.not_mem_nil
    · exact absurd hd List.not_mem_nil
  have hinv (s : State) (a : Action) (t : State) (h : Inv s ∧ Kept s) (hT : Timely s a)
      (hstep : step s a = some t) : Inv t ∧ Kept t :=
    ⟨inv_step h.1 hstep, kept_step h.1 h.2 hT hstep⟩
  refine ⟨coalesced_run hrun, ?_, ?_⟩
  · have hkept : Inv t ∧ Kept t := Machine.inv_run_of_meets hinv hstart hT hrun
    exact fun c hc => hkept.2 c (Or.inl hc)
  · exact Machine.each_of_meets hinv (fun _ _ _ h hT hstep => keeps_step h.1 hT hstep) hstart hT

/-- A pick that is changed without a connection. -/
def pick (priority : String) : Mutation :=
  { clientId := "pick-p1-s1"
    type := .api
    url := some "/profiles/p1"
    method := some "PUT"
    body := some (.str priority) }

/-- The second pick arrives while the first one is replayed from IndexedDB. -/
def replayedRun : List Action :=
  [.queueMutation 1000 "r" (pick "must") [], .proceed 0 1000 [], .processQueue 2000 [],
    .queueMutation 3000 "r" (pick "maybe") [], .proceed 0 3000 [], .settle 4000 .ok [],
    .finish []]

theorem replayedRun_kept : ∃ t, Machine.run step start replayedRun = some t ∧
    (Coalesced t.queue ∧ (∀ c ∈ t.accepted, Accounted t c) ∧
      Machine.Each step Keeps start replayedRun) :=
  ⟨_, rfl, newer_kept rfl ⟨trivial, trivial,
    fun _ _ _ _ _ hf => absurd hf List.not_mem_nil, trivial, trivial,
    fun _ => ⟨fun h => absurd h (by simp), trivial⟩, trivial, trivial⟩⟩

/-- The same without IndexedDB: both picks go to `localStorage`. -/
def lostRun : List Action :=
  [.queueMutation 1000 "r" (pick "must") [false], .proceed 0 1000 [true, true],
    .proceed 0 1000 [false, true], .processQueue 2000 [false, true],
    .queueMutation 3000 "r" (pick "maybe") [false], .proceed 0 3000 [true, true],
    .proceed 0 3000 [false, true], .settle 4000 .ok [true, true]]

/-- The answer for the first pick removes the second one. -/
theorem newer_lost : ∃ t, Machine.run step start lostRun = some t ∧
    (1, pick "maybe") ∈ t.accepted ∧ ¬ Accounted t (1, pick "maybe") := by
  refine ⟨_, rfl, List.mem_cons_of_mem _ List.mem_cons_self, ?_⟩
  rintro ((⟨e, he, -⟩ | ⟨f, hf, -⟩ | hreplaced) | hdelivered)
  · exact absurd he List.not_mem_nil
  · exact absurd hf List.not_mem_nil
  · exact absurd (List.mem_singleton.mp hreplaced) Nat.one_ne_zero
  · exact absurd (congrArg Prod.fst (List.mem_singleton.mp hdelivered)) Nat.one_ne_zero

end FestivalPlanner.WebQueue.Interleaved
