import FestivalPlanner.Sync.WebQueue

/-!
# Calls of `queueMutation`, stage by stage

What other code can see of a call between two of its `await`s, and what becomes of the entry
that it stored.

* `Queue.begin`, `Queue.proceed` — a call from one `await` to the next;
* `Queue.Stored` — what all operations keep of the two stores;
* `Queue.Holds` — the entry of a call is pending, or the call was reported or gave way.
-/

namespace FestivalPlanner.WebQueue

open List

/-! ## Calls -/

/-- What a call of `queueMutation` waits for. -/
inductive Stage where
  /-- the count, after its entry went to IndexedDB -/
  | countIdb
  /-- the fallback -/
  | fallback
  /-- the count, after its entry went to `localStorage` -/
  | countLocal
  deriving DecidableEq

/-- The call that an entry is of, and its mutation. -/
def Entry.call (m : Entry) : ℕ × Mutation := (m.serial, m.toMutation)

/-- A call of `queueMutation` that has not returned. -/
structure Call where
  entry : Entry
  stage : Stage

/-- `queueMutation` up to the end of its transaction. -/
def Queue.begin (q : Queue) (e : Entry) : Call × Queue :=
  if q.device.openTx.1 then
    (⟨e, .countIdb⟩, Queue.upsertIdb { q with device := q.device.openTx.2 } e)
  else (⟨e, .fallback⟩, { q with device := q.device.openTx.2 })

/-- Can `localStorage` be read and written? -/
def Device.takes (d : Device) : Bool := d.access.1 && d.access.2.access.1

/-- The device after that. -/
def Device.afterTaking (d : Device) : Device :=
  if d.access.1 then d.access.2.access.2 else d.access.2

/-- The rest of `queueMutation` up to its next `await`; no call is left when it returns. -/
def Queue.proceed (now : ℤ) (q : Queue) (c : Call) : Option Call × Queue :=
  match c.stage with
  | .countIdb =>
      (if q.getPendingCount.1.isSome then none else some ⟨c.entry, .fallback⟩, q.getPendingCount.2)
  | .fallback =>
      let q' := { q with device := q.device.afterTaking }
      if q.device.takes then
        let e := { c.entry with createdAt := now }
        (some ⟨e, .countLocal⟩, q'.upsertLocal e)
      else (none, q'.addFailedSync (unsaved now c.entry))
  | .countLocal =>
      if q.getPendingCount.1.isSome then (none, q.getPendingCount.2)
      else (none, q.getPendingCount.2.addFailedSync (unsaved now c.entry))

theorem begin_cases (q : Queue) (e : Entry) : ∃ d,
    q.begin e = (⟨e, .countIdb⟩, Queue.upsertIdb { q with device := d } e) ∨
    q.begin e = (⟨e, .fallback⟩, { q with device := d }) := by
  unfold Queue.begin
  split_ifs
  · exact ⟨_, .inl rfl⟩
  · exact ⟨_, .inr rfl⟩

/-- A call goes on with a count, reaches the fallback, goes on from it, or is reported. -/
theorem proceed_cases (now : ℤ) (q : Queue) (c : Call) : ∃ d,
    (c.stage ≠ .fallback ∧ q.proceed now c = (none, { q with device := d })) ∨
    (c.stage = .countIdb ∧ q.proceed now c = (some ⟨c.entry, .fallback⟩, { q with device := d })) ∨
    (c.stage = .fallback ∧ q.device.takes ∧ q.proceed now c =
      (some ⟨{ c.entry with createdAt := now }, .countLocal⟩,
        Queue.upsertLocal { q with device := d } { c.entry with createdAt := now })) ∨
    (((c.stage = .fallback ∧ ¬ q.device.takes) ∨ (c.stage = .countLocal ∧ ¬ q.read.1.isSome)) ∧
      q.proceed now c
        = (none, Queue.addFailedSync { q with device := d } (unsaved now c.entry))) := by
  obtain ⟨e, stage⟩ := c
  have hcount : q.getPendingCount.1.isSome = q.read.1.isSome := Option.isSome_map
  cases stage with
  | countIdb =>
    simp only [Queue.proceed, hcount]
    split_ifs
    · exact ⟨_, .inl ⟨by simp, rfl⟩⟩
    · exact ⟨_, .inr (.inl ⟨trivial, rfl⟩)⟩
  | fallback =>
    simp only [Queue.proceed]
    split_ifs with htakes
    · exact ⟨_, .inr (.inr (.inl ⟨trivial, htakes, rfl⟩))⟩
    · exact ⟨_, .inr (.inr (.inr ⟨.inl ⟨trivial, htakes⟩, rfl⟩))⟩
  | countLocal =>
    simp only [Queue.proceed, hcount]
    split_ifs with hread
    · exact ⟨_, .inl ⟨by simp, rfl⟩⟩
    · exact ⟨_, .inr (.inr (.inr ⟨.inr ⟨trivial, hread⟩, rfl⟩))⟩

/-! ## What the stores are like -/

/-- Keys are unique and were generated, and each store has one entry, a pending one, for each
client id. -/
structure Queue.Stored (q : Queue) : Prop where
  ids : (q.idb.map Entry.id).Nodup
  idLt : ∀ e ∈ q.idb, ∃ k < q.nextId, e.id = some k
  localId : ∀ e ∈ q.localQueue, e.id = none
  idbClients : (q.idb.map (fun e => e.clientId)).Nodup
  localClients : (q.localQueue.map (fun e => e.clientId)).Nodup
  idbPending : ∀ e ∈ q.idb, e.status = .pending
  localPending : ∀ e ∈ q.localQueue, e.status = .pending

variable {all : List Entry} {x e m : Entry} {clientId : String} {c : ℕ × Mutation}

/-- The pending entry of a client id is the entry of that client id. -/
theorem matches?_eq_some (hn : (all.map (fun e => e.clientId)).Nodup)
    (hp : ∀ e ∈ all, e.status = .pending) (hx : x ∈ all) : matches? x.clientId all = some x := by
  cases hfind : matches? x.clientId all with
  | none =>
    have hnot := find?_eq_none.mp hfind x hx
    simp [hp x hx] at hnot
  | some y =>
    have hy := find?_some hfind
    simp only [decide_eq_true_eq] at hy
    exact congrArg some (inj_on_of_nodup_map hn (mem_of_find?_eq_some hfind) hx hy.1)

theorem eraseP_eq_filter (hn : (all.map (fun e => e.clientId)).Nodup)
    (hp : ∀ e ∈ all, e.status = .pending) (clientId : String) :
    all.eraseP (fun m => m.clientId = clientId ∧ m.status = .pending)
      = all.filter (fun m => m.clientId ≠ clientId) := by
  induction all with
  | nil => rfl
  | cons m ms ih =>
    obtain ⟨hm, hn⟩ := nodup_cons.mp hn
    have hpm := hp m mem_cons_self
    by_cases hc : m.clientId = clientId
    · have hself : ms.filter (fun x => x.clientId ≠ clientId) = ms := by
        refine filter_eq_self.mpr (fun x hx => ?_)
        have hne : x.clientId ≠ m.clientId := fun hxm => hm (mem_map.mpr ⟨x, hx, hxm⟩)
        simpa [hc] using hne
      rw [eraseP_cons_of_pos (by simp [hc, hpm]), filter_cons_of_neg (by simp [hc]),
        hself]
    · rw [eraseP_cons_of_neg (by simp [hc]), filter_cons_of_pos (by simp [hc]),
        ih hn (fun x hx => hp x (mem_cons_of_mem m hx))]

/-- An entry in the place of that of its client id: one entry for each client id. -/
theorem clients_append (hn : (all.map (fun e => e.clientId)).Nodup) (he : e.clientId = clientId) :
    ((all.filter (fun x => x.clientId ≠ clientId) ++ [e]).map (fun e => e.clientId)).Nodup := by
  subst he
  rw [map_append, nodup_append]
  refine ⟨hn.sublist (filter_sublist.map _), by simp, ?_⟩
  intro a ha b hb
  obtain ⟨x, hx, rfl⟩ := mem_map.mp ha
  obtain rfl : b = e.clientId := by simpa using hb
  simpa using of_mem_filter hx

theorem mem_filter_append {p : Entry → Bool} (hx : x ∈ all.filter p ++ [e]) : x ∈ all ∨ x = e := by
  rcases mem_append.mp hx with hx | hx
  · exact .inl (mem_of_mem_filter hx)
  · exact .inr (mem_singleton.mp hx)

/-- The entries of a bumped list are those of the list, up to retries. -/
theorem mem_updateFirst {retries : ℕ} (hx : x ∈ updateFirst clientId retries all) :
    x ∈ all ∨ ∃ y ∈ all, x = { y with retries := retries, status := .pending } := by
  induction all with
  | nil => exact absurd hx not_mem_nil
  | cons m ms ih =>
    rw [updateFirst] at hx
    split at hx
    · rcases mem_cons.mp hx with rfl | hx
      · exact .inr ⟨m, mem_cons_self, rfl⟩
      · exact .inl (mem_cons_of_mem m hx)
    · rcases mem_cons.mp hx with rfl | hx
      · exact .inl mem_cons_self
      · rcases ih hx with hx | ⟨y, hy, rfl⟩
        · exact .inl (mem_cons_of_mem m hx)
        · exact .inr ⟨y, mem_cons_of_mem m hy, rfl⟩

theorem mem_updateFirst_of_ne {retries : ℕ} (hc : x.clientId ≠ clientId) (hx : x ∈ all) :
    x ∈ updateFirst clientId retries all := by
  induction all with
  | nil => exact absurd hx not_mem_nil
  | cons m ms ih =>
    rw [updateFirst]
    split
    · rename_i hm
      rcases mem_cons.mp hx with rfl | hx
      · exact absurd hm hc
      · exact mem_cons_of_mem _ hx
    · rcases mem_cons.mp hx with rfl | hx
      · exact mem_cons_self
      · exact mem_cons_of_mem m (ih hx)

/-- No entry is lost, and pending ones stay so. -/
theorem exists_mem_updateFirst (clientId : String) (retries : ℕ) (hx : x ∈ all) :
    ∃ y ∈ updateFirst clientId retries all, y.call = x.call ∧ (x.isPending → y.isPending) := by
  induction all with
  | nil => exact absurd hx not_mem_nil
  | cons m ms ih =>
    rw [updateFirst]
    split
    · rcases mem_cons.mp hx with rfl | hx
      · exact ⟨_, mem_cons_self, rfl, fun _ => rfl⟩
      · exact ⟨x, mem_cons_of_mem _ hx, rfl, id⟩
    · rcases mem_cons.mp hx with rfl | hx
      · exact ⟨x, mem_cons_self, rfl, id⟩
      · obtain ⟨y, hy, hcall⟩ := ih hx
        exact ⟨y, mem_cons_of_mem m hy, hcall⟩

namespace Queue.Stored

variable {q : Queue} (h : q.Stored)
include h

/-- In IndexedDB the new entry takes the place of that of its client id. -/
theorem idb_upsertIdb (e : Entry) : (q.upsertIdb e).idb
    = q.idb.filter (fun x => x.clientId ≠ e.clientId) ++ [{ e with id := some q.nextId }] := by
  refine congrArg (· ++ [{ e with id := some q.nextId }]) (filter_congr (fun x hx => ?_))
  rw [decide_eq_decide]
  constructor
  · intro hid hc
    exact hid x (hc ▸ matches?_eq_some h.idbClients h.idbPending hx) rfl
  · intro hc m hm hid
    have hmem : m ∈ q.idb := mem_of_find?_eq_some hm
    have hmc := find?_some hm
    obtain rfl := inj_on_of_nodup_map h.ids hx hmem hid
    simp [hc] at hmc

/-- In `localStorage` too. -/
theorem localQueue_upsertLocal (e : Entry) : (q.upsertLocal e).localQueue
    = q.localQueue.filter (fun x => x.clientId ≠ e.clientId) ++ [e] :=
  congrArg (· ++ [e]) (eraseP_eq_filter h.localClients h.localPending e.clientId)

/-- A new key is above all keys. -/
theorem upsertIdb (e : Entry) (he : e.status = .pending) : (q.upsertIdb e).Stored := by
  have hnew {x : Entry} (hx : x ∈ (q.upsertIdb e).idb) :
      x ∈ q.idb ∨ x = { e with id := some q.nextId } := mem_filter_append hx
  refine ⟨?_, ?_, h.localId, ?_, h.localClients, ?_, h.localPending⟩
  · rw [h.idb_upsertIdb e, map_append, nodup_append]
    refine ⟨h.ids.sublist (filter_sublist.map _), by simp, ?_⟩
    intro a ha b hb
    obtain ⟨x, hx, rfl⟩ := mem_map.mp ha
    obtain ⟨k, hk, hid⟩ := h.idLt x (mem_of_mem_filter hx)
    obtain rfl : b = some q.nextId := by simpa using hb
    rw [hid]
    intro heq
    exact absurd (Option.some.inj heq) hk.ne
  · intro x hx
    rcases hnew hx with hx | rfl
    · obtain ⟨k, hk, hid⟩ := h.idLt x hx
      exact ⟨k, hk.trans (Nat.lt_succ_self _), hid⟩
    · exact ⟨q.nextId, Nat.lt_succ_self _, rfl⟩
  · rw [h.idb_upsertIdb e]
    exact clients_append h.idbClients rfl
  · intro x hx
    rcases hnew hx with hx | rfl
    · exact h.idbPending x hx
    · exact he

theorem upsertLocal (e : Entry) (he : e.status = .pending) (hid : e.id = none) :
    (q.upsertLocal e).Stored := by
  have hnew {x : Entry} (hx : x ∈ (q.upsertLocal e).localQueue) : x ∈ q.localQueue ∨ x = e := by
    rw [h.localQueue_upsertLocal e] at hx
    exact mem_filter_append hx
  refine ⟨h.ids, h.idLt, ?_, h.idbClients, ?_, h.idbPending, ?_⟩
  · intro x hx
    rcases hnew hx with hx | rfl
    · exact h.localId x hx
    · exact hid
  · rw [h.localQueue_upsertLocal e]
    exact clients_append h.localClients rfl
  · intro x hx
    rcases hnew hx with hx | rfl
    · exact h.localPending x hx
    · exact he

theorem remove (m : Entry) : (q.remove m).Stored := by
  obtain ⟨d, heq | ⟨k, -, heq⟩ | ⟨-, heq⟩⟩ := remove_cases q m <;> rw [heq]
  · exact ⟨h.ids, h.idLt, h.localId, h.idbClients, h.localClients, h.idbPending, h.localPending⟩
  · refine ⟨h.ids.sublist (filter_sublist.map _), ?_, h.localId,
      h.idbClients.sublist (filter_sublist.map _), h.localClients, ?_, h.localPending⟩
    · exact fun x hx => h.idLt x (mem_of_mem_filter hx)
    · exact fun x hx => h.idbPending x (mem_of_mem_filter hx)
  · refine ⟨h.ids, h.idLt, ?_, h.idbClients,
      h.localClients.sublist (filter_sublist.map _), h.idbPending, ?_⟩
    · exact fun x hx => h.localId x (mem_of_mem_filter hx)
    · exact fun x hx => h.localPending x (mem_of_mem_filter hx)

theorem bump (m : Entry) : (q.bump m).Stored := by
  obtain ⟨d, heq | ⟨k, -, heq⟩ | ⟨-, heq⟩⟩ := bump_cases q m <;> rw [heq]
  · exact ⟨h.ids, h.idLt, h.localId, h.idbClients, h.localClients, h.idbPending, h.localPending⟩
  · refine ⟨?_, ?_, h.localId, ?_, h.localClients, ?_, h.localPending⟩
    · simpa [Function.comp_def] using h.ids
    · intro x hx
      obtain ⟨y, hy, rfl⟩ := mem_map.mp hx
      simpa using h.idLt y hy
    · simpa [Function.comp_def] using h.idbClients
    · intro x hx
      obtain ⟨y, hy, rfl⟩ := mem_map.mp hx
      unfold bumpAt
      split
      · rfl
      · exact h.idbPending y hy
  · refine ⟨h.ids, h.idLt, ?_, h.idbClients, ?_, h.idbPending, ?_⟩
    · intro x hx
      rcases mem_updateFirst hx with hx | ⟨y, hy, rfl⟩
      · exact h.localId x hx
      · exact h.localId y hy
    · rw [map_updateFirst (fun e : Entry => e.clientId) (fun _ _ => rfl)]
      exact h.localClients
    · intro x hx
      rcases mem_updateFirst hx with hx | ⟨y, hy, rfl⟩
      · exact h.localPending x hx
      · rfl

end Queue.Stored

/-! ## What becomes of a call -/

/-- The entry of a call is pending, or the call was reported, or it gave way to a later one. -/
def Queue.Holds (q : Queue) (c : ℕ × Mutation) : Prop :=
  (∃ e ∈ q.idb ++ q.localQueue, e.isPending ∧ e.call = c) ∨
  (∃ f ∈ q.failedSync, f.serial = c.1 ∧ f.clientId = c.2.clientId) ∨
  c.1 ∈ q.replaced

/-- No later call of the client id was reported. -/
def Queue.NoNewerReport (q : Queue) (e : Entry) : Prop :=
  ∀ f ∈ q.failedSync, f.clientId = e.clientId → f.serial ≤ e.serial

theorem Queue.Holds.mono {q t : Queue} (h : q.Holds c)
    (he : ∀ e ∈ q.idb ++ q.localQueue, e.isPending → e.call = c →
      ∃ x ∈ t.idb ++ t.localQueue, x.isPending ∧ x.call = e.call)
    (hf : q.failedSync ⊆ t.failedSync) (hr : q.replaced ⊆ t.replaced) : t.Holds c := by
  rcases h with ⟨e, hmem, hpending, rfl⟩ | ⟨f, hmem, hserial⟩ | hmem
  · exact .inl (he e hmem hpending rfl)
  · exact .inr (.inl ⟨f, hf hmem, hserial⟩)
  · exact .inr (.inr (hr hmem))

/-- A report takes the place of an older one, or of one of the same call. -/
theorem Queue.Holds.addFailedSync {q : Queue} (h : q.Holds c) (item : FailedSyncItem)
    (hnew : ∀ f ∈ q.failedSync, f.clientId = item.clientId → f.serial ≤ item.serial) :
    (q.addFailedSync item).Holds c := by
  rcases h with hentry | ⟨f, hmem, hserial, hclient⟩ | hmem
  · exact .inl hentry
  · by_cases hf : f.clientId = item.clientId
    · rcases (hnew f hmem hf).lt_or_eq with hlt | heq
      · refine .inr (.inr (mem_append.mpr (.inr ?_)))
        exact mem_map.mpr ⟨f, mem_filter.mpr ⟨hmem, by simp [hf, hlt]⟩, hserial⟩
      · exact .inr (.inl ⟨item, by simp [Queue.addFailedSync], heq ▸ hserial, hf ▸ hclient⟩)
    · exact .inr (.inl ⟨f, by simp [Queue.addFailedSync, hmem, hf], hserial, hclient⟩)
  · exact .inr (.inr (mem_append_left _ hmem))

/-- The call that is reported. -/
theorem holds_addFailedSync (q : Queue) (item : FailedSyncItem) (hserial : item.serial = c.1)
    (hclient : item.clientId = c.2.clientId) : (q.addFailedSync item).Holds c :=
  Or.inr (.inl ⟨item, by simp [Queue.addFailedSync], hserial, hclient⟩)

/-- An entry that gives way is that of an older call. -/
theorem mem_givesWay (hn : (all.map (fun e => e.clientId)).Nodup)
    (hp : ∀ e ∈ all, e.status = .pending) (hx : x ∈ all) (hc : x.clientId = e.clientId)
    (hlt : x.serial < e.serial) : x.serial ∈ givesWay e.serial (matches? e.clientId all) := by
  rw [← hc, matches?_eq_some hn hp hx]
  simp [givesWay, hlt]

theorem Queue.Holds.upsertIdb {q : Queue} (h : q.Holds c) (hq : q.Stored) (e : Entry)
    (he : ∀ x ∈ q.idb, x.serial < e.serial) : (q.upsertIdb e).Holds c := by
  by_cases hgone : ∃ x ∈ q.idb, x.clientId = e.clientId ∧ x.call = c
  · obtain ⟨x, hx, hc, rfl⟩ := hgone
    exact .inr (.inr (mem_append_right _
      (mem_givesWay hq.idbClients hq.idbPending hx hc (he x hx))))
  · refine h.mono ?_ (fun _ hf => hf) (fun _ hr => mem_append_left _ hr)
    intro x hx hpending hcall
    refine ⟨x, ?_, hpending, rfl⟩
    rw [hq.idb_upsertIdb e]
    rcases mem_append.mp hx with hx | hx
    · have hc : x.clientId ≠ e.clientId := fun hc => hgone ⟨x, hx, hc, hcall⟩
      exact mem_append_left _ (mem_append_left _ (by simp [hx, hc]))
    · exact mem_append_right _ hx

/-- The fallback of a call, when no later call of its client id is in `localStorage`. -/
theorem Queue.Holds.upsertLocal {q : Queue} (h : q.Holds c) (hq : q.Stored) (e : Entry)
    (hpe : e.isPending) (he : ∀ x ∈ q.localQueue, x.clientId = e.clientId → x.serial ≤ e.serial)
    (hsame : ∀ x ∈ q.localQueue, x.serial = e.serial → x.call = e.call) :
    (q.upsertLocal e).Holds c := by
  by_cases hgone : ∃ x ∈ q.localQueue, x.clientId = e.clientId ∧ x.call = c
  · obtain ⟨x, hx, hc, rfl⟩ := hgone
    rcases (he x hx hc).lt_or_eq with hlt | heq
    · exact .inr (.inr (mem_append_right _
        (mem_givesWay hq.localClients hq.localPending hx hc hlt)))
    · refine .inl ⟨e, ?_, hpe, (hsame x hx heq).symm⟩
      simp [hq.localQueue_upsertLocal e]
  · refine h.mono ?_ (fun _ hf => hf) (fun _ hr => mem_append_left _ hr)
    intro x hx hpending hcall
    refine ⟨x, ?_, hpending, rfl⟩
    rw [hq.localQueue_upsertLocal e]
    rcases mem_append.mp hx with hx | hx
    · exact mem_append_left _ hx
    · have hc : x.clientId ≠ e.clientId := fun hc => hgone ⟨x, hx, hc, hcall⟩
      exact mem_append_right _ (mem_append_left _ (by simp [hx, hc]))

/-- The entries that a removal or a bump of `m` is about are of the call of `m`. -/
def Queue.Names (q : Queue) (m : Entry) : Prop :=
  (∀ x ∈ q.idb, x.id = m.id → x.serial = m.serial) ∧
  (m.id = none → ∀ x ∈ q.localQueue, x.clientId = m.clientId → x.serial = m.serial)

/-- A removal keeps the entries of other calls. -/
theorem mem_remove {q : Queue} (hm : q.Names m) (hne : x.serial ≠ m.serial) :
    (x ∈ q.idb → x ∈ (q.remove m).idb) ∧ (x ∈ q.localQueue → x ∈ (q.remove m).localQueue) := by
  obtain ⟨d, heq | ⟨k, hid, heq⟩ | ⟨hid, heq⟩⟩ := remove_cases q m <;> rw [heq]
  · exact ⟨id, id⟩
  · refine ⟨fun hx => ?_, id⟩
    have hk : x.id ≠ some k := fun hk => hne (hm.1 x hx (hk.trans hid.symm))
    simp [hx, hk]
  · refine ⟨id, fun hx => ?_⟩
    have hc : x.clientId ≠ m.clientId := fun hc => hne (hm.2 hid x hx hc)
    simp [hx, hc]

/-- So does a bump. -/
theorem mem_bump {q : Queue} (hm : q.Names m) (hne : x.serial ≠ m.serial) :
    (x ∈ q.idb → x ∈ (q.bump m).idb) ∧ (x ∈ q.localQueue → x ∈ (q.bump m).localQueue) := by
  obtain ⟨d, heq | ⟨k, hid, heq⟩ | ⟨hid, heq⟩⟩ := bump_cases q m <;> rw [heq]
  · exact ⟨id, id⟩
  · refine ⟨fun hx => ?_, id⟩
    have hk : x.id ≠ some k := fun hk => hne (hm.1 x hx (hk.trans hid.symm))
    exact mem_map.mpr ⟨x, hx, by simp [bumpAt, hk]⟩
  · refine ⟨id, fun hx => ?_⟩
    have hc : x.clientId ≠ m.clientId := fun hc => hne (hm.2 hid x hx hc)
    exact mem_updateFirst_of_ne hc hx

theorem replaced_remove (q : Queue) (m : Entry) :
    (q.remove m).failedSync = q.failedSync ∧ (q.remove m).replaced = q.replaced := by
  obtain ⟨d, heq | ⟨k, -, heq⟩ | ⟨-, heq⟩⟩ := remove_cases q m <;> rw [heq] <;> exact ⟨rfl, rfl⟩

theorem replaced_bump (q : Queue) (m : Entry) :
    (q.bump m).failedSync = q.failedSync ∧ (q.bump m).replaced = q.replaced := by
  obtain ⟨d, heq | ⟨k, -, heq⟩ | ⟨-, heq⟩⟩ := bump_cases q m <;> rw [heq] <;> exact ⟨rfl, rfl⟩

theorem Queue.Holds.remove {q : Queue} (h : q.Holds c) (hm : q.Names m) (hne : c.1 ≠ m.serial) :
    (q.remove m).Holds c := by
  obtain ⟨hf, hr⟩ := replaced_remove q m
  refine h.mono ?_ (by rw [hf]; exact fun _ hf => hf) (by rw [hr]; exact fun _ hr => hr)
  rintro x hx hpending rfl
  have hkeep := mem_remove hm hne (x := x)
  exact ⟨x, mem_append.mpr ((mem_append.mp hx).imp hkeep.1 hkeep.2), hpending, rfl⟩

/-- A bump loses no entry, whichever it changes. -/
theorem Queue.Holds.bump {q : Queue} (h : q.Holds c) (m : Entry) : (q.bump m).Holds c := by
  obtain ⟨hf, hr⟩ := replaced_bump q m
  refine h.mono ?_ (by rw [hf]; exact fun _ hf => hf) (by rw [hr]; exact fun _ hr => hr)
  rintro x hx hpending -
  obtain ⟨d, heq | ⟨k, -, heq⟩ | ⟨-, heq⟩⟩ := bump_cases q m <;> rw [heq]
  · exact ⟨x, hx, hpending, rfl⟩
  · rcases mem_append.mp hx with hx | hx
    · refine ⟨bumpAt k (m.retries + 1) x,
        mem_append_left _ (mem_map_of_mem hx), ?_, by simp [Entry.call]⟩
      unfold bumpAt
      split
      · rfl
      · exact hpending
    · exact ⟨x, mem_append_right _ hx, hpending, rfl⟩
  · rcases mem_append.mp hx with hx | hx
    · exact ⟨x, mem_append_left _ hx, hpending, rfl⟩
    · obtain ⟨y, hy, hcall, hpy⟩ := exists_mem_updateFirst m.clientId (m.retries + 1) hx
      exact ⟨y, mem_append_right _ hy, hpy hpending, hcall⟩

/-- Reports about entries of different client ids do not meet. -/
theorem Queue.Holds.foldl_surfaceStaleDrop {now : ℤ} {stale : List Entry} {q : Queue}
    (h : q.Holds c) (hn : (stale.map (fun e => e.clientId)).Nodup)
    (hnew : ∀ m ∈ stale, q.NoNewerReport m) :
    (stale.foldl (Queue.surfaceStaleDrop now) q).Holds c := by
  induction stale generalizing q with
  | nil => exact h
  | cons m ms ih =>
    obtain ⟨hm, hn⟩ := nodup_cons.mp hn
    have hrest : ∀ x ∈ ms, q.NoNewerReport x :=
      fun x hx => hnew x (mem_cons_of_mem m hx)
    rw [foldl_cons]
    unfold Queue.surfaceStaleDrop
    split
    · refine ih (h.addFailedSync _ (hnew m mem_cons_self)) hn ?_
      intro x hx f hf hc
      rcases mem_append.mp hf with hf | hf
      · exact hrest x hx f (mem_of_mem_filter hf) hc
      · obtain rfl := mem_singleton.mp hf
        exact absurd (mem_map.mpr ⟨x, hx, hc.symm⟩) hm
    · exact ih h hn hrest

/-- The entries of the stores are entries that they had, up to retries. -/
structure Shrinks (q t : Queue) : Prop where
  nextId : t.nextId = q.nextId
  serial : t.serial = q.serial
  idb : ∀ x ∈ t.idb, ∃ y ∈ q.idb, y.call = x.call ∧ y.id = x.id
  localQueue : ∀ x ∈ t.localQueue, ∃ y ∈ q.localQueue, y.call = x.call

/-- Reports and the device do not belong to the stores. -/
theorem Shrinks.reports (q : Queue) (d : Device) (f : List FailedSyncItem) (r : List ℕ) :
    Shrinks q { q with device := d, failedSync := f, replaced := r } :=
  ⟨rfl, rfl, fun x hx => ⟨x, hx, rfl, rfl⟩, fun x hx => ⟨x, hx, rfl⟩⟩

theorem Queue.Stored.reports {q : Queue} (h : q.Stored) (d : Device) (f : List FailedSyncItem)
    (r : List ℕ) : Queue.Stored { q with device := d, failedSync := f, replaced := r } :=
  ⟨h.ids, h.idLt, h.localId, h.idbClients, h.localClients, h.idbPending, h.localPending⟩

theorem shrinks_remove (q : Queue) (m : Entry) : Shrinks q (q.remove m) := by
  obtain ⟨d, heq | ⟨k, -, heq⟩ | ⟨-, heq⟩⟩ := remove_cases q m <;> rw [heq]
  · exact Shrinks.reports q d _ _
  · exact ⟨rfl, rfl, fun x hx => ⟨x, mem_of_mem_filter hx, rfl, rfl⟩, fun x hx => ⟨x, hx, rfl⟩⟩
  · exact ⟨rfl, rfl, fun x hx => ⟨x, hx, rfl, rfl⟩, fun x hx => ⟨x, mem_of_mem_filter hx, rfl⟩⟩

theorem shrinks_bump (q : Queue) (m : Entry) : Shrinks q (q.bump m) := by
  obtain ⟨d, heq | ⟨k, -, heq⟩ | ⟨-, heq⟩⟩ := bump_cases q m <;> rw [heq]
  · exact Shrinks.reports q d _ _
  · refine ⟨rfl, rfl, fun x hx => ?_, fun x hx => ⟨x, hx, rfl⟩⟩
    obtain ⟨y, hy, rfl⟩ := mem_map.mp hx
    exact ⟨y, hy, by simp [Entry.call], by simp⟩
  · refine ⟨rfl, rfl, fun x hx => ⟨x, hx, rfl, rfl⟩, fun x hx => ?_⟩
    rcases mem_updateFirst hx with hx | ⟨y, hy, rfl⟩
    · exact ⟨x, hx, rfl⟩
    · exact ⟨y, hy, rfl⟩

/-- A settled entry is removed or bumped, with or without a report. -/
theorem settle_cases (now : ℤ) (q : Queue) (m : Entry) (reply : Reply) :
    (reply = .ok ∧ q.settle now m reply = q.remove m) ∨
    (∃ status message, reply = .error status message ∧ isPermanent m status ∧
      q.settle now m reply
        = (q.addFailedSync (report now (reason status message) m)).remove m) ∨
    (∃ status message, reply = .error status message ∧ q.settle now m reply = q.bump m) := by
  cases reply with
  | ok => exact .inl ⟨rfl, rfl⟩
  | error status message =>
    simp only [Queue.settle]
    split_ifs with hp
    · exact .inr (.inl ⟨status, message, rfl, hp, rfl⟩)
    · exact .inr (.inr ⟨status, message, rfl, rfl⟩)

theorem shrinks_settle (now : ℤ) (q : Queue) (m : Entry) (reply : Reply) :
    Shrinks q (q.settle now m reply) := by
  rcases settle_cases now q m reply with ⟨-, heq⟩ | ⟨status, message, -, -, heq⟩ | ⟨_, _, -, heq⟩
  · exact heq ▸ shrinks_remove q m
  · have h := shrinks_remove (q.addFailedSync (report now (reason status message) m)) m
    rw [heq]
    exact ⟨h.nextId, h.serial, h.idb, h.localQueue⟩
  · exact heq ▸ shrinks_bump q m

theorem Queue.Stored.settle {q : Queue} (h : q.Stored) (now : ℤ) (m : Entry) (reply : Reply) :
    (q.settle now m reply).Stored := by
  rcases settle_cases now q m reply with ⟨-, heq⟩ | ⟨status, message, -, -, heq⟩ | ⟨_, _, -, heq⟩
  · exact heq ▸ h.remove m
  · rw [heq]
    exact Queue.Stored.remove (h.reports _ _ _) m
  · exact heq ▸ h.bump m

end FestivalPlanner.WebQueue
